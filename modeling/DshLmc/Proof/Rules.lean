import DshLmc.Core.StateMachine
import DshLmc.Proof.RuleHistory

/-!
# What the rules enforce

A walk over the rules of an operation ends well when no check of it comes out false. A rule has a
say in that only if it is the earliest of its pair and its attribute can be read: `BiMapSet` keeps
the first of two rules for one pair, and a check that throws is skipped. The commands and the
attribute writes are one argument, with a condition of their own under which the walk is taken.
-/

namespace DshLmc

open Tango

namespace StateMachine

variable (sm : StateMachine) (misread : Misread) (dev : Device)

def readValue (attr_name : String) : Except DevFailed ((T : ElementType) × T.Carrier) := do
  let attr ← dev.get_attr_by_name attr_name
  sm.currentValue attr attr_name

/-- The attribute of the rule can be read and its value is one of those of the rule. -/
def Satisfied (rule : Rule) : Prop :=
  ∃ T, ∃ value : T.Carrier, ∃ values : List T.Carrier,
    sm.readValue dev rule.attr_name = .ok ⟨T, value⟩ ∧ rule.values = ⟨T, values⟩
      ∧ hasValueInSet values value = true

/-- The walk comes to the rule: it is the earliest of its pair, and its attribute can be read. -/
def Consulted (rules : List Rule) (rule : Rule) (value : (T : ElementType) × T.Carrier) : Prop :=
  earliest rules rule.name rule.attr_name = some rule.values
    ∧ sm.readValue dev rule.attr_name = .ok value

/-- The walk compares the value with the values of the rule, in the type they have. -/
def Enforced (rules : List Rule) (rule : Rule) : Prop :=
  ∃ value, sm.Consulted dev rules rule value ∧ rule.values.T = value.1

/-- The walk finds that the value, read in the type of the attribute, is not in the rule. -/
def Rejects (rules : List Rule) (rule : Rule) : Prop :=
  ∃ value, sm.Consulted dev rules rule value
    ∧ hasValueInSet (rule.values.cast misread value.1) value.2 = false

theorem satisfied_of_enforced {rules : List Rule} {rule : Rule}
    (henforced : sm.Enforced dev rules rule) (hrejects : ¬ sm.Rejects misread dev rules rule) :
    sm.Satisfied dev rule := by
  obtain ⟨⟨T, value⟩, hconsulted, htype⟩ := henforced
  obtain ⟨name, attr_name, T', values⟩ := rule
  subst htype
  refine ⟨_, value, values, hconsulted.2, rfl, ?_⟩
  by_contra hmissing
  refine hrejects ⟨⟨_, value⟩, hconsulted, ?_⟩
  rw [AbstractSet.cast_self]
  exact Bool.eq_false_iff.mpr hmissing

theorem checkAll_eq_ok_iff (check : String → Except DevFailed Bool) (name : String)
    (attr_names : List String) :
    sm.checkAll check name attr_names = .ok ()
      ↔ ∀ attr_name ∈ attr_names, check attr_name ≠ .ok false := by
  induction attr_names with
  | nil => simp [checkAll]
  | cons attr_name rest ih =>
      rw [checkAll, List.forall_mem_cons]
      rcases hcheck : check attr_name with e | allowed
      · simpa using ih
      · cases allowed with
        | true => simpa using ih
        | false => simp

/-- What a check comes to, for an attribute that has an earliest rule. -/
def checkValue (set : AbstractSet) (attr_name : String) : Except DevFailed Bool := do
  let value ← sm.readValue dev attr_name
  return hasValueInSet (set.cast misread value.1) value.2

theorem checkValue_eq_ok_false_iff (set : AbstractSet) (attr_name : String) :
    sm.checkValue misread dev set attr_name = .ok false
      ↔ ∃ value, sm.readValue dev attr_name = .ok value
        ∧ hasValueInSet (set.cast misread value.1) value.2 = false := by
  rw [checkValue]
  cases sm.readValue dev attr_name with
  | error e => simp [bind, Except.bind]
  | ok value => simp [bind, Except.bind, pure, Except.pure]

/-- **A walk ends well exactly when it comes to no rule that rejects the value.** -/
theorem checkAll_walk {rules : List Rule} {name : String} {attr_names : List String}
    (hnames : ∀ attr_name, attr_name ∈ attr_names ↔ ∃ set, earliest rules name attr_name = some set)
    {check : String → Except DevFailed Bool}
    (hcheck : ∀ attr_name set, earliest rules name attr_name = some set →
      check attr_name = sm.checkValue misread dev set attr_name) :
    sm.checkAll check name attr_names = .ok ()
      ↔ ∀ rule ∈ rules, rule.name = name → ¬ sm.Rejects misread dev rules rule := by
  rw [checkAll_eq_ok_iff]
  constructor
  · intro hall rule _ hname
    subst hname
    rintro ⟨value, ⟨hearliest, hvalue⟩, hrejects⟩
    refine hall rule.attr_name ((hnames _).mpr ⟨_, hearliest⟩) ?_
    rw [hcheck _ _ hearliest]
    exact (sm.checkValue_eq_ok_false_iff misread dev _ _).mpr ⟨value, hvalue, hrejects⟩
  · intro hall attr_name hmem hfalse
    obtain ⟨set, hearliest⟩ := (hnames attr_name).mp hmem
    obtain ⟨rule, hrule, hkey, rfl⟩ := earliest_eq_some hearliest
    obtain ⟨rfl, rfl⟩ := hkey
    rw [hcheck _ _ hearliest] at hfalse
    obtain ⟨value, hvalue, hrejects⟩ :=
      (sm.checkValue_eq_ok_false_iff misread dev _ _).mp hfalse
    exact hall rule hrule rfl ⟨value, ⟨hearliest, hvalue⟩, hrejects⟩

/-- **When a walk fails safe.** With `allowed` the end of the walk, and `walked` what has to hold for
it to be taken. -/
theorem failsSafe_iff {rules : List Rule} {name : String} {allowed walked : Prop}
    (hallowed : allowed
      ↔ (walked → ∀ rule ∈ rules, rule.name = name → ¬ sm.Rejects misread dev rules rule)) :
    (allowed → ∀ rule ∈ rules, rule.name = name → sm.Satisfied dev rule)
      ↔ (walked ∧ ∃ rule ∈ rules, rule.name = name ∧ sm.Rejects misread dev rules rule)
        ∨ ∀ rule ∈ rules, rule.name = name → ¬ (walked ∧ sm.Enforced dev rules rule) →
          sm.Satisfied dev rule := by
  constructor
  · intro hsafe
    by_cases hrejected :
        walked ∧ ∃ rule ∈ rules, rule.name = name ∧ sm.Rejects misread dev rules rule
    · exact Or.inl hrejected
    · right
      intro rule hrule hname _
      refine hsafe (hallowed.mpr ?_) rule hrule hname
      intro hwalked rule' hrule' hname' hrejects
      exact hrejected ⟨hwalked, rule', hrule', hname', hrejects⟩
  · intro hcondition hend rule hrule hname
    obtain ⟨hwalked, rule', hrule', hname', hrejects⟩ | hrest := hcondition
    · exact absurd hrejects (hallowed.mp hend hwalked rule' hrule' hname')
    · by_cases henforced : walked ∧ sm.Enforced dev rules rule
      · exact sm.satisfied_of_enforced misread dev henforced.2
          (hallowed.mp hend henforced.1 rule hrule hname)
      · exact hrest rule hrule hname henforced

end StateMachine

open StateMachine

variable (misread : Misread) (dev : Device) (history : List Registration)

/-- The check of a command asks for the command first, unless it is told not to. -/
def CmdKnown (cmd_name : String) (check_cmd : Bool) : Prop :=
  check_cmd = true → dev.get_cmd_by_name cmd_name = .ok ()

/-- The walk of a write is skipped for an attribute that is not writable, unless told not to. -/
def WriteChecked (attr_name : String) (check : Bool) : Prop :=
  check = true → ∃ attr, dev.get_attr_by_name attr_name = .ok attr ∧ attr.is_writ_associated = true

theorem StateMachine.check_eq_checkValue (sm : StateMachine) {rules : RuleFactory}
    {name attr_name : String} {set : AbstractSet}
    (hallowed : ∀ T (value : T.Carrier), sm.isAllowed rules T name attr_name value
      = hasValueInSet (set.cast misread T) value) :
    sm.check dev rules name attr_name = sm.checkValue misread dev set attr_name := by
  rw [StateMachine.check, checkValue, readValue]
  cases dev.get_attr_by_name attr_name with
  | error e => rfl
  | ok attr =>
      cases hvalue : sm.currentValue attr attr_name with
      | error e => simp [bind, Except.bind, hvalue]
      | ok value => simp [bind, Except.bind, hvalue, pure, Except.pure, hallowed]

theorem checkIfCmdIsAllowed_of_known {rules : RuleFactory} {cmd_name : String} {check_cmd : Bool}
    (hknown : CmdKnown dev cmd_name check_cmd) (attr_name : String) :
    checkIfCmdIsAllowed misread dev rules cmd_name attr_name check_cmd
      = (cmdMachine misread).check dev rules cmd_name attr_name := by
  rw [checkIfCmdIsAllowed]
  cases check_cmd with
  | false => rfl
  | true => simp [hknown rfl, bind, Except.bind]

theorem checkIfCmdIsAllowed_of_not_known {rules : RuleFactory} {cmd_name : String}
    {check_cmd : Bool} (hknown : ¬ CmdKnown dev cmd_name check_cmd) (attr_name : String) :
    checkIfCmdIsAllowed misread dev rules cmd_name attr_name check_cmd ≠ .ok false := by
  obtain ⟨rfl, hunknown⟩ := Classical.not_imp.mp hknown
  cases hcmd : dev.get_cmd_by_name cmd_name with
  | error e => simp [checkIfCmdIsAllowed, hcmd, bind, Except.bind]
  | ok _ => exact absurd hcmd hunknown

theorem isCmdAllowed_eq (rules : RuleFactory) (fcn_name : String) (check_cmd : Bool) :
    isCmdAllowed misread dev rules fcn_name check_cmd
      = (cmdMachine misread).checkAll (fun attr_name =>
          checkIfCmdIsAllowed misread dev rules (cmdName fcn_name) attr_name check_cmd)
        (cmdName fcn_name) (((cmdMachine misread).getAttrs rules (cmdName fcn_name)).getD []) := by
  rw [isCmdAllowed]
  cases (cmdMachine misread).getAttrs rules (cmdName fcn_name) <;> rfl

theorem isCmdAllowed_eq_ok_iff (fcn_name : String) (check_cmd : Bool) :
    isCmdAllowed misread dev (run register RuleFactory.initial history) fcn_name check_cmd = .ok ()
      ↔ (CmdKnown dev (cmdName fcn_name) check_cmd →
        ∀ rule ∈ cmdRules history, rule.name = cmdName fcn_name →
          ¬ (cmdMachine misread).Rejects misread dev (cmdRules history) rule) := by
  have hholds := (holdsHistory_run history).cmd
  generalize run register RuleFactory.initial history = factory at hholds
  rw [isCmdAllowed_eq]
  by_cases hknown : CmdKnown dev (cmdName fcn_name) check_cmd
  · rw [forall_prop_of_true hknown]
    refine (cmdMachine misread).checkAll_walk misread dev (hholds.mem_getAttrs_iff _) ?_
    intro attr_name set hset
    rw [checkIfCmdIsAllowed_of_known misread dev hknown]
    refine (cmdMachine misread).check_eq_checkValue misread dev ?_
    intro T value
    exact hholds.isAllowed misread hset T value
  · rw [checkAll_eq_ok_iff]
    constructor
    · intro _ hknown'
      exact absurd hknown' hknown
    · intro _ attr_name _
      exact checkIfCmdIsAllowed_of_not_known misread dev hknown attr_name

theorem isAttrWriteAllowed_eq (rules : RuleFactory) (attr_name : String) (check : Bool) :
    isAttrWriteAllowed misread dev rules attr_name check
      = (do
        if check then
          let attr ← dev.get_attr_by_name attr_name
          if !attr.is_writ_associated then return
        (attrWriteMachine misread).checkAll ((attrWriteMachine misread).check dev rules attr_name)
          attr_name (((attrWriteMachine misread).getAttrs rules attr_name).getD [])) := by
  rw [isAttrWriteAllowed]
  cases (attrWriteMachine misread).getAttrs rules attr_name <;> rfl

theorem isAttrWriteAllowed_eq_ok_iff (attr_name : String) (check : Bool) :
    isAttrWriteAllowed misread dev (run register RuleFactory.initial history) attr_name check
        = .ok ()
      ↔ (check = true → ∃ attr, dev.get_attr_by_name attr_name = .ok attr)
        ∧ (WriteChecked dev attr_name check →
          ∀ rule ∈ attrWriteRules history, rule.name = attr_name →
            ¬ (attrWriteMachine misread).Rejects misread dev (attrWriteRules history) rule) := by
  have hholds := (holdsHistory_run history).write
  generalize run register RuleFactory.initial history = factory at hholds
  have hwalk : (attrWriteMachine misread).checkAll
        ((attrWriteMachine misread).check dev factory attr_name) attr_name
        (((attrWriteMachine misread).getAttrs factory attr_name).getD []) = .ok ()
      ↔ ∀ rule ∈ attrWriteRules history, rule.name = attr_name →
        ¬ (attrWriteMachine misread).Rejects misread dev (attrWriteRules history) rule := by
    refine (attrWriteMachine misread).checkAll_walk misread dev (hholds.mem_getAttrs_iff _) ?_
    intro sm_attr_name set hset
    refine (attrWriteMachine misread).check_eq_checkValue misread dev ?_
    intro T value
    exact hholds.isAllowed misread hset T value
  rw [isAttrWriteAllowed_eq]
  cases check with
  | false => simpa [WriteChecked] using hwalk
  | true =>
      cases hattr : dev.get_attr_by_name attr_name with
      | error e => simp [bind, Except.bind]
      | ok attr =>
          cases hwritable : attr.is_writ_associated with
          | false =>
              simp [WriteChecked, hattr, hwritable, bind, Except.bind, pure, Except.pure]
          | true => simpa [WriteChecked, hattr, hwritable, bind, Except.bind] using hwalk

/-- **When the rules fail safe.** A command, or a write, that is let through satisfies every rule
registered for it, whatever was registered before and whatever the attributes are, exactly when the
walk comes to a rule that rejects the value, or each rule that the walk passes over is satisfied as
it is. A rule is passed over when another was registered for its pair before it, when its attribute
cannot be read or has not the type of its values, and when the walk is not taken. -/
theorem allowed_satisfies_iff (fcn_name attr_name : String) (check_cmd check : Bool) :
    ((isCmdAllowed misread dev (run register RuleFactory.initial history) fcn_name check_cmd
          = .ok () →
        ∀ rule ∈ cmdRules history, rule.name = cmdName fcn_name →
          (cmdMachine misread).Satisfied dev rule)
      ↔ (CmdKnown dev (cmdName fcn_name) check_cmd ∧ ∃ rule ∈ cmdRules history,
          rule.name = cmdName fcn_name
            ∧ (cmdMachine misread).Rejects misread dev (cmdRules history) rule)
        ∨ ∀ rule ∈ cmdRules history, rule.name = cmdName fcn_name →
          ¬ (CmdKnown dev (cmdName fcn_name) check_cmd
            ∧ (cmdMachine misread).Enforced dev (cmdRules history) rule) →
          (cmdMachine misread).Satisfied dev rule)
    ∧ ((isAttrWriteAllowed misread dev (run register RuleFactory.initial history) attr_name check
          = .ok () →
        ∀ rule ∈ attrWriteRules history, rule.name = attr_name →
          (attrWriteMachine misread).Satisfied dev rule)
      ↔ (check = true ∧ ∀ attr, dev.get_attr_by_name attr_name ≠ .ok attr)
        ∨ (WriteChecked dev attr_name check ∧ ∃ rule ∈ attrWriteRules history,
          rule.name = attr_name
            ∧ (attrWriteMachine misread).Rejects misread dev (attrWriteRules history) rule)
        ∨ ∀ rule ∈ attrWriteRules history, rule.name = attr_name →
          ¬ (WriteChecked dev attr_name check
            ∧ (attrWriteMachine misread).Enforced dev (attrWriteRules history) rule) →
          (attrWriteMachine misread).Satisfied dev rule) := by
  constructor
  · exact (cmdMachine misread).failsSafe_iff misread dev
      (isCmdAllowed_eq_ok_iff misread dev history fcn_name check_cmd)
  · by_cases hmissing : check = true ∧ ∀ attr, dev.get_attr_by_name attr_name ≠ .ok attr
    · simp only [hmissing.1, true_and]
      refine iff_of_true ?_ (Or.inl hmissing.2)
      intro hallowed
      rw [isAttrWriteAllowed_eq_ok_iff] at hallowed
      obtain ⟨attr, hattr⟩ := hallowed.1 rfl
      exact absurd hattr (hmissing.2 attr)
    · rw [or_iff_right hmissing]
      refine (attrWriteMachine misread).failsSafe_iff misread dev ?_
      rw [isAttrWriteAllowed_eq_ok_iff]
      refine and_iff_right ?_
      intro hcheck
      by_contra hnone
      exact hmissing ⟨hcheck, fun attr hattr => hnone ⟨attr, hattr⟩⟩

def pointingDevice : Device where
  get_cmd_by_name _ := .ok ()
  get_attr_by_name attr_name :=
    if attr_name = "mode" then
      .ok
        { data_type := devString
          data_format := Tango.scalar
          is_writ_associated := true
          enum_labels := []
          data := some ⟨.string, .scalar "POINT", "", .valid, ⟨0, 0⟩, true⟩
          typed := by
            rintro d ⟨⟩
            exact ⟨rfl, rfl⟩ }
    else .error ⟨"API_AttrNotFound", s!"{attr_name} attribute not found"⟩

def stowRules : List Rule :=
  [⟨"Stow", "mode", ⟨.string, ["POINT"]⟩⟩, ⟨"Stow", "mode", ⟨.string, ["STOW"]⟩⟩]

/-- The second of two rules for one pair never takes effect. -/
theorem exists_allowed_not_satisfied :
    isCmdAllowed (fun _ _ => []) pointingDevice
        (run register RuleFactory.initial (stowRules.map .cmdRule)) "is_Stow_allowed" true = .ok ()
      ∧ ∃ rule ∈ cmdRules (stowRules.map .cmdRule), rule.name = cmdName "is_Stow_allowed"
        ∧ ¬ (cmdMachine fun _ _ => []).Satisfied pointingDevice rule := by
  refine ⟨by decide +kernel, ⟨"Stow", "mode", ⟨.string, ["STOW"]⟩⟩, ?_, by decide, ?_⟩
  · simp [stowRules, cmdRules]
  · rintro ⟨T, value, values, hvalue, hvalues, hin⟩
    obtain ⟨⟩ : (⟨.string, "POINT"⟩ : (T : ElementType) × T.Carrier) = ⟨T, value⟩ :=
      Except.ok.inj hvalue
    obtain ⟨⟩ := hvalues
    exact absurd hin (by decide)

end DshLmc
