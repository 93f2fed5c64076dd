import DshLmc.Library.Run
import DshLmc.Utils.RuleFactory

/-!
# Histories of rule registrations

After any history of registrations the maps of `RuleFactory` hold, for each operation and
attribute, the earliest rule that was registered for the two.
-/

namespace DshLmc

/-- The operation of a rule, the attribute it looks at and the allowed values. -/
structure Rule where
  name : String
  attr_name : String
  values : AbstractSet

inductive Registration where
  | cmdRule (rule : Rule)
  | attrReadRule (rule : Rule)
  | attrWriteRule (rule : Rule)

def register (f : RuleFactory) : Registration → RuleFactory
  | .cmdRule r => (f.getInstance.addCmdRule r.name r.attr_name r.values).getD f.getInstance
  | .attrReadRule r =>
      (f.getInstance.addAttrReadRule r.name r.attr_name r.values).getD f.getInstance
  | .attrWriteRule r =>
      (f.getInstance.addAttrWriteRule r.name r.attr_name r.values).getD f.getInstance

def cmdRules (history : List Registration) : List Rule :=
  history.filterMap fun | .cmdRule r => some r | _ => none

def attrReadRules (history : List Registration) : List Rule :=
  history.filterMap fun | .attrReadRule r => some r | _ => none

def attrWriteRules (history : List Registration) : List Rule :=
  history.filterMap fun | .attrWriteRule r => some r | _ => none

def earliest (rules : List Rule) (name attr_name : String) : Option AbstractSet :=
  (rules.find? fun r => r.name = name ∧ r.attr_name = attr_name).map (·.values)

theorem earliest_eq_some {rules : List Rule} {name attr_name : String} {set : AbstractSet}
    (h : earliest rules name attr_name = some set) :
    ∃ rule ∈ rules, (rule.name = name ∧ rule.attr_name = attr_name) ∧ rule.values = set := by
  obtain ⟨rule, hfind, hvalues⟩ := Option.map_eq_some_iff.mp h
  exact ⟨rule, List.mem_of_find?_eq_some hfind, by simpa using List.find?_some hfind, hvalues⟩

theorem earliest_append_singleton (rules : List Rule) (rule : Rule) (name attr_name : String) :
    earliest (rules ++ [rule]) name attr_name
      = (earliest rules name attr_name).or
          (if rule.name = name ∧ rule.attr_name = attr_name then some rule.values else none) := by
  rw [earliest, earliest, List.find?_append]
  cases rules.find? fun r => r.name = name ∧ r.attr_name = attr_name with
  | some r => simp
  | none =>
      by_cases h : rule.name = name ∧ rule.attr_name = attr_name
      · simp [h]
      · simp [h]

def stored (rules : Option StringBiMapSet) : StringBiMapSet := rules.getD ∅

/-- A map holds the earliest rule of each pair. -/
def HoldsEarliest (rules : List Rule) (map : Option StringBiMapSet) : Prop :=
  ∀ name attr_name, (stored map).find? name attr_name = earliest rules name attr_name

theorem holdsEarliest_nil : HoldsEarliest [] none := by
  intro name attr_name
  simp [stored, earliest]

theorem HoldsEarliest.getInstance {rules : List Rule} {map : Option StringBiMapSet}
    (h : HoldsEarliest rules map) : HoldsEarliest (rules ++ []) (some (stored map)) := by
  rw [List.append_nil]
  exact h

theorem HoldsEarliest.add {rules : List Rule} {map : Option StringBiMapSet}
    (h : HoldsEarliest rules map) (r : Rule) :
    HoldsEarliest (rules ++ [r]) (some ((stored map).add r.name r.attr_name r.values)) := by
  intro name attr_name
  calc (stored (some ((stored map).add r.name r.attr_name r.values))).find? name attr_name
      = ((stored map).find? name attr_name).or
          (if r.name = name ∧ r.attr_name = attr_name then some r.values else none) :=
        BiMapSet.find?_add ..
    _ = (earliest rules name attr_name).or
          (if r.name = name ∧ r.attr_name = attr_name then some r.values else none) := by
        rw [h name attr_name]
    _ = earliest (rules ++ [r]) name attr_name := (earliest_append_singleton ..).symm

theorem HoldsEarliest.mem_getAttrs_iff {rules : List Rule} {map : Option StringBiMapSet}
    (h : HoldsEarliest rules map) (name attr_name : String) :
    attr_name ∈ (RuleFactory.getAttrs map name).getD []
      ↔ ∃ set, earliest rules name attr_name = some set := by
  rw [← h name attr_name]
  cases map with
  | none => simp [RuleFactory.getAttrs, stored]
  | some map =>
      change attr_name ∈ (map.get2ndKeyList name).getD []
        ↔ ∃ set, map.find? name attr_name = some set
      cases hkeys : map.get2ndKeyList name with
      | none =>
          have hentry : map[name]? = none := Option.map_eq_none_iff.mp hkeys
          simp [BiMapSet.find?, hentry]
      | some keys => exact BiMapSet.mem_keys_iff hkeys attr_name

theorem HoldsEarliest.isAllowed {rules : List Rule} {map : Option StringBiMapSet}
    (h : HoldsEarliest rules map) (misread : Misread) {name attr_name : String} {set : AbstractSet}
    (hset : earliest rules name attr_name = some set) (T : Tango.ElementType) (value : T.Carrier) :
    RuleFactory.isAllowed misread map T name attr_name value
      = hasValueInSet (set.cast misread T) value := by
  rw [← h name attr_name] at hset
  cases map with
  | none => simp [stored] at hset
  | some map => exact BiMapSet.hasAllowedValueInSet_of_find? misread hset T value

/-- The three maps hold the earliest rules of a history. -/
structure HoldsHistory (history : List Registration) (f : RuleFactory) : Prop where
  cmd : HoldsEarliest (cmdRules history) f.m_cmdRulesPtr
  read : HoldsEarliest (attrReadRules history) f.m_attrReadRulesPtr
  write : HoldsEarliest (attrWriteRules history) f.m_attrWriteRulesPtr

theorem HoldsHistory.register {history : List Registration} {f : RuleFactory}
    (h : HoldsHistory history f) (registration : Registration) :
    HoldsHistory (history ++ [registration]) (register f registration) := by
  cases registration with
  | cmdRule r =>
      constructor
      · rw [cmdRules, List.filterMap_append]
        exact h.cmd.add r
      · rw [attrReadRules, List.filterMap_append]
        exact h.read.getInstance
      · rw [attrWriteRules, List.filterMap_append]
        exact h.write.getInstance
  | attrReadRule r =>
      constructor
      · rw [cmdRules, List.filterMap_append]
        exact h.cmd.getInstance
      · rw [attrReadRules, List.filterMap_append]
        exact h.read.add r
      · rw [attrWriteRules, List.filterMap_append]
        exact h.write.getInstance
  | attrWriteRule r =>
      constructor
      · rw [cmdRules, List.filterMap_append]
        exact h.cmd.getInstance
      · rw [attrReadRules, List.filterMap_append]
        exact h.read.getInstance
      · rw [attrWriteRules, List.filterMap_append]
        exact h.write.add r

/-- **What the maps hold.** After any history each map holds the earliest rule of each pair. -/
theorem holdsHistory_run (history : List Registration) :
    HoldsHistory history (run register RuleFactory.initial history) := by
  refine run_history ⟨holdsEarliest_nil, holdsEarliest_nil, holdsEarliest_nil⟩ ?_
  intro past registration _ hpast
  exact hpast.register registration

end DshLmc
