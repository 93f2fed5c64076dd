import DshLmc.Utils.CodeUtils

/-!
# The registered rules

A command rule says for which values of an attribute a command is allowed, and the rules of
attribute reads and writes do the same for an operation on another attribute. `RuleFactory` keeps
the three in maps from the operation to the attribute to the values. The maps are made the first
time the singleton is asked for.
-/

namespace DshLmc

open Tango

abbrev StringBiMapSet := BiMapSet String String

structure RuleFactory where
  m_cmdRulesPtr : Option StringBiMapSet
  m_attrReadRulesPtr : Option StringBiMapSet
  m_attrWriteRulesPtr : Option StringBiMapSet

namespace RuleFactory

/-- The static pointers before the first use. -/
def initial : RuleFactory := ⟨none, none, none⟩

/-- `RuleFactory::Instance`. -/
def getInstance (f : RuleFactory) : RuleFactory where
  m_cmdRulesPtr := some (f.m_cmdRulesPtr.getD ∅)
  m_attrReadRulesPtr := some (f.m_attrReadRulesPtr.getD ∅)
  m_attrWriteRulesPtr := some (f.m_attrWriteRulesPtr.getD ∅)

/-- The three `GetAttrs...` lists. Without a map or an entry the call returns -1. -/
def getAttrs (rules : Option StringBiMapSet) (name : String) : Option (List String) :=
  rules.bind (·.get2ndKeyList name)

def getAttrsInCmdRules (f : RuleFactory) := getAttrs f.m_cmdRulesPtr
def getSMAttrsInAttrWriteRules (f : RuleFactory) := getAttrs f.m_attrWriteRulesPtr

def addCmdRule (f : RuleFactory) (cmd_name attr_name : String) (attr_values : AbstractSet) :
    Option RuleFactory :=
  f.m_cmdRulesPtr.map fun rules =>
    { f with m_cmdRulesPtr := some (rules.add cmd_name attr_name attr_values) }

def addAttrReadRule (f : RuleFactory) (attr_name sm_attr_name : String)
    (sm_attr_values : AbstractSet) : Option RuleFactory :=
  f.m_attrReadRulesPtr.map fun rules =>
    { f with m_attrReadRulesPtr := some (rules.add attr_name sm_attr_name sm_attr_values) }

def addAttrWriteRule (f : RuleFactory) (attr_name sm_attr_name : String)
    (sm_attr_values : AbstractSet) : Option RuleFactory :=
  f.m_attrWriteRulesPtr.map fun rules =>
    { f with m_attrWriteRulesPtr := some (rules.add attr_name sm_attr_name sm_attr_values) }

variable (misread : Misread)

/-- The three `Is...Allowed` tests. Everything is allowed where there is no rule. -/
def isAllowed (rules : Option StringBiMapSet) (T : ElementType) (name attr_name : String)
    (value : T.Carrier) : Bool :=
  match rules with
  | none => true
  | some rules => rules.hasAllowedValueInSet misread T name attr_name value

def isCmdAllowed (f : RuleFactory) := isAllowed misread f.m_cmdRulesPtr
def isAttrWriteAllowed (f : RuleFactory) := isAllowed misread f.m_attrWriteRulesPtr

end RuleFactory

end DshLmc
