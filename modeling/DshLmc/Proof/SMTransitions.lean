import DshLmc.Core.SMDynAttr
import DshLmc.Library.Run

/-!
# Which transitions a state machine attribute makes

The check of `SetSMDynAttrValue` is about the value that the call has read. It says something about
the value in the attribute as long as no other call has put one there. In a run in which this is so
at every write, the attribute moves along the registered transitions and no call takes back what
another one has set.
-/

namespace DshLmc

open Tango

section Rules

variable {T : ElementType} [Ord T.Carrier] [Std.TransOrd T.Carrier] {α : Type}

def registerAll (registrations : List (AttrRule T)) : AttrRules T :=
  registrations.foldl AttrRules.addAttrRule ∅

/-- No rule is registered for the value, or the new one is among those registered for it. -/
def IsRegistered (ruleValue : RuleValue α T) (registrations : List (AttrRule T))
    (attr_name : String) (attr_value_current attr_value_new : α) : Prop :=
  ∀ key, ruleValue attr_value_current = some key →
    (∀ r ∈ registrations, r.attr_name = attr_name → r.attr_key ≠ key) ∨
      ∃ r ∈ registrations, (r.attr_name = attr_name ∧ r.attr_key = key) ∧
        ∃ new, ruleValue attr_value_new = some new ∧ hasValueInSet r.attr_values new

theorem hasAllowedValueInSet_of_find?_eq_none {map : AttrRules T} {misread : Misread}
    {attr_name : String} {key : T.Carrier} (h : map.find? attr_name key = none)
    (value : T.Carrier) : map.hasAllowedValueInSet misread T attr_name key value = true := by
  rw [BiMapSet.hasAllowedValueInSet]
  cases hitem : map[attr_name]? with
  | none => rfl
  | some item =>
      have hnone : item[key]? = none := by simpa [BiMapSet.find?, hitem] using h
      simp [MapSet.hasAllowedValueInSet, hnone]

variable [Std.LawfulEqOrd T.Carrier] [DecidableEq T.Carrier]

def earliestAttrRule (registrations : List (AttrRule T)) (attr_name : String) (key : T.Carrier) :
    Option (AttrRule T) :=
  registrations.find? fun r => r.attr_name = attr_name ∧ r.attr_key = key

theorem find?_registerAll (registrations : List (AttrRule T)) (attr_name : String)
    (key : T.Carrier) :
    (registerAll registrations).find? attr_name key
      = (earliestAttrRule registrations attr_name key).map fun r => ⟨T, r.attr_values⟩ := by
  induction registrations using List.reverseRecOn with
  | nil => simp [registerAll, earliestAttrRule]
  | append_singleton past r ih =>
      rw [registerAll, List.foldl_append, ← registerAll, List.foldl_cons, List.foldl_nil,
        AttrRules.addAttrRule, BiMapSet.find?_add, ih, earliestAttrRule, earliestAttrRule,
        List.find?_append]
      cases past.find? fun r => r.attr_name = attr_name ∧ r.attr_key = key with
      | some earlier => simp
      | none =>
          by_cases h : r.attr_name = attr_name ∧ r.attr_key = key
          · simp [h]
          · simp [h]

theorem isAttrAllowed_registerAll (registrations : List (AttrRule T)) (misread : Misread)
    (attr_name : String) (key value : T.Carrier) :
    (registerAll registrations).isAttrAllowed misread attr_name key value
      = ((earliestAttrRule registrations attr_name key).map fun r =>
          hasValueInSet r.attr_values value).getD true := by
  have hfind := find?_registerAll registrations attr_name key
  cases h : earliestAttrRule registrations attr_name key with
  | none =>
      rw [h] at hfind
      exact hasAllowedValueInSet_of_find?_eq_none hfind value
  | some r =>
      rw [h] at hfind
      rw [AttrRules.isAttrAllowed, BiMapSet.hasAllowedValueInSet_of_find? misread hfind]
      simp

theorem isRegistered_of_isAttrAllowed {ruleValue : RuleValue α T}
    {registrations : List (AttrRule T)} {misread : Misread} {attr_name : String} {current new : α}
    (h : isAttrAllowed ruleValue (registerAll registrations) misread attr_name current new) :
    IsRegistered ruleValue registrations attr_name current new := by
  intro key hkey
  rw [isAttrAllowed, hkey] at h
  cases hnew : ruleValue new with
  | none => simp [hnew] at h
  | some value =>
      simp only [hnew, isAttrAllowed_registerAll] at h
      cases hr : earliestAttrRule registrations attr_name key with
      | none =>
          left
          intro r hmem hname hattr
          exact absurd (List.find?_eq_none.mp hr r hmem) (by simp [hname, hattr])
      | some r =>
          right
          refine ⟨r, List.mem_of_find?_eq_some hr, by simpa using List.find?_some hr, value, rfl, ?_⟩
          simpa [hr] using h

end Rules

namespace SetSMDynAttrValue

variable {α : Type} {isAllowed : α → α → Bool} {value : α} {position : SetSMDynAttrValue α}
  {access : SMAccess α}

def puts : SetSMDynAttrValue α → SMAccess α → Bool
  | .writing _ _ _, .write outcome | .fallingBack _, .write outcome => outcome != .failsBefore
  | _, _ => false

def reads : SetSMDynAttrValue α → SMAccess α → Bool
  | .reading _ _, .read succeeds => succeeds
  | _, _ => false

/-- The value that a call has read and that the rules are asked about. -/
def readValue : SetSMDynAttrValue α → Option α
  | .checking _ _ current | .writing _ _ current => some current
  | _ => none

/-- A call writes only what is allowed from the value that it has read. -/
def IsChecked (isAllowed : α → α → Bool) : SetSMDynAttrValue α → Prop
  | .writing attr_value _ current => isAllowed current attr_value
  | _ => True

theorem value_of_not_puts (h : puts position access = false) :
    (advance isAllowed value position access).1 = value := by
  fun_cases advance isAllowed value position access <;> simp_all [puts]

theorem advance_of_returned_zero (h : (advance isAllowed value position access).2.2 = some 0) :
    ∃ new fallback current, position = .writing new fallback current ∧ access = .write .succeeds ∧
      (advance isAllowed value position access).1 = new := by
  fun_cases advance isAllowed value position access <;> simp_all [advance]

theorem puts_of_returned_zero (h : (advance isAllowed value position access).2.2 = some 0) :
    puts position access = true := by
  obtain ⟨new, fallback, current, rfl, rfl, -⟩ := advance_of_returned_zero h
  rfl

theorem not_reads_of_readValue {current : α} (h : readValue position = some current) :
    reads position access = false := by
  cases position with
  | reading attr_value fallback => cases h
  | _ => rfl

/-- After its access a call relies on what it has read now or relied on before. -/
theorem readValue_advance {current : α}
    (h : readValue (advance isAllowed value position access).2.1 = some current) :
    (reads position access = true ∧ current = value) ∨ readValue position = some current := by
  fun_cases advance isAllowed value position access <;> simp_all [reads, readValue, advance]

/-- A call that has put a value relies on nothing more. -/
theorem not_puts_of_readValue_advance {current : α}
    (h : readValue (advance isAllowed value position access).2.1 = some current) :
    puts position access = false := by
  fun_cases puts position access with
  | case1 new fallback before outcome => cases outcome <;> simp [readValue, advance] at h
  | case2 safe outcome => cases outcome <;> simp [readValue, advance] at h
  | case3 => rfl

theorem isChecked_advance (h : IsChecked isAllowed position) :
    IsChecked isAllowed (advance isAllowed value position access).2.1 := by
  fun_cases advance isAllowed value position access <;> simp_all [IsChecked]

end SetSMDynAttrValue

namespace SMDynAttr

variable {ι α : Type} [DecidableEq ι] (isAllowed : α → α → Bool)

def puts (s : SMDynAttr ι α) (i : ι × SMAccess α) : Bool := (s.threads i.1).puts i.2

def reads (s : SMDynAttr ι α) (i : ι × SMAccess α) : Bool := (s.threads i.1).reads i.2

/-- The attribute with what happened to each call since it has read: whether another call has put a
value, and whether one that returned 0 has. -/
structure Watched (ι α : Type) where
  attr : SMDynAttr ι α
  disturbed : ι → Bool
  overtaken : ι → Bool

def Watched.initial (value : α) : Watched ι α := ⟨.initial value, fun _ => false, fun _ => false⟩

def watchStep (o : Watched ι α) (i : ι × SMAccess α) : Watched ι α where
  attr := step isAllowed o.attr i
  disturbed t :=
    if t = i.1 then o.disturbed t && !reads o.attr i else o.disturbed t || puts o.attr i
  overtaken t :=
    if t = i.1 then o.overtaken t && !reads o.attr i
    else o.overtaken t || (returned isAllowed o.attr i == some 0)

/-- Another call has put no value between the read of the call and its write, or its roll-back. -/
def Undisturbed (o : Watched ι α) (i : ι × SMAccess α) : Prop :=
  puts o.attr i → o.disturbed i.1 = false

instance (o : Watched ι α) (i : ι × SMAccess α) : Decidable (Undisturbed o i) :=
  inferInstanceAs (Decidable (_ → _))

/-- The step of a call that returns 0 moves along a transition, and the step of one that does not
leaves what another call has set since it has read. -/
structure MovesWell (registered : α → α → Prop) (o : Watched ι α) (i : ι × SMAccess α) : Prop where
  transition : returned isAllowed o.attr i = some 0 →
    o.attr.value ≠ (step isAllowed o.attr i).value →
      registered o.attr.value (step isAllowed o.attr i).value
  leaves : returned isAllowed o.attr i ≠ some 0 → o.overtaken i.1 →
    (step isAllowed o.attr i).value = o.attr.value

variable {isAllowed} {o : Watched ι α} {i : ι × SMAccess α}

/-- What is known of the calls in every run. -/
structure Watched.Sound (isAllowed : α → α → Bool) (o : Watched ι α) : Prop where
  current : ∀ t, o.disturbed t = false →
    ∀ value ∈ (o.attr.threads t).readValue, o.attr.value = value
  isChecked : ∀ t, (o.attr.threads t).IsChecked isAllowed
  disturbed : ∀ t, o.overtaken t → o.disturbed t

omit [DecidableEq ι] in
theorem Watched.sound_initial (value : α) :
    Watched.Sound isAllowed (Watched.initial value : Watched ι α) where
  current := by simp [Watched.initial, SMDynAttr.initial, SetSMDynAttrValue.readValue]
  isChecked := fun _ => trivial
  disturbed := by simp [Watched.initial]

@[simp]
theorem step_threads_self (s : SMDynAttr ι α) (i : ι × SMAccess α) :
    (step isAllowed s i).threads i.1
      = ((s.threads i.1).advance isAllowed s.value i.2).2.1 := by
  simp [step]

theorem step_threads_of_ne (s : SMDynAttr ι α) {i : ι × SMAccess α} {t : ι} (ht : t ≠ i.1) :
    (step isAllowed s i).threads t = s.threads t := by
  simp [step, ht]

theorem step_value_of_not_puts {s : SMDynAttr ι α} (h : puts s i = false) :
    (step isAllowed s i).value = s.value :=
  SetSMDynAttrValue.value_of_not_puts h

theorem Watched.Sound.current_watchStep (h : o.Sound isAllowed) {t : ι}
    (hdisturbed : (watchStep isAllowed o i).disturbed t = false) {value : α}
    (hvalue : ((step isAllowed o.attr i).threads t).readValue = some value) :
    (step isAllowed o.attr i).value = value := by
  by_cases ht : t = i.1
  · subst ht
    rw [step_threads_self] at hvalue
    rw [step_value_of_not_puts (SetSMDynAttrValue.not_puts_of_readValue_advance hvalue)]
    obtain ⟨-, rfl⟩ | hbefore := SetSMDynAttrValue.readValue_advance hvalue
    · rfl
    · have hreads : reads o.attr i = false := SetSMDynAttrValue.not_reads_of_readValue hbefore
      exact h.current i.1 (by simpa [watchStep, hreads] using hdisturbed) value hbefore
  · rw [step_threads_of_ne _ ht] at hvalue
    have hquiet : o.disturbed t = false ∧ puts o.attr i = false := by
      simpa [watchStep, ht] using hdisturbed
    rw [step_value_of_not_puts hquiet.2]
    exact h.current t hquiet.1 value hvalue

theorem Watched.Sound.watchStep (h : o.Sound isAllowed) (i : ι × SMAccess α) :
    (watchStep isAllowed o i).Sound isAllowed where
  current t hdisturbed value hvalue := h.current_watchStep hdisturbed hvalue
  isChecked t := by
    by_cases ht : t = i.1
    · subst ht
      rw [SMDynAttr.watchStep, step_threads_self]
      exact SetSMDynAttrValue.isChecked_advance (h.isChecked i.1)
    · rw [SMDynAttr.watchStep, step_threads_of_ne _ ht]
      exact h.isChecked t
  disturbed t := by
    have hbefore := h.disturbed t
    by_cases ht : t = i.1
    · simp only [SMDynAttr.watchStep, if_pos ht, Bool.and_eq_true]
      exact fun hboth => ⟨hbefore hboth.1, hboth.2⟩
    · simp only [SMDynAttr.watchStep, if_neg ht, Bool.or_eq_true, beq_iff_eq]
      rintro (hovertaken | hreturned)
      · exact .inl (hbefore hovertaken)
      · exact .inr (SetSMDynAttrValue.puts_of_returned_zero hreturned)

/-- What the claim about a step needs is known in every run. -/
theorem movesWell_of_undisturbed (hsound : o.Sound isAllowed) (h : Undisturbed o i) :
    MovesWell isAllowed (fun current new => isAllowed current new) o i where
  transition hreturned _ := by
    obtain ⟨new, fallback, current, hposition, haccess, hvalue⟩ :=
      SetSMDynAttrValue.advance_of_returned_zero hreturned
    have hchecked : isAllowed current new := by
      have hi := hsound.isChecked i.1
      rwa [hposition] at hi
    have hcurrent : o.attr.value = current := by
      refine hsound.current i.1 (h (SetSMDynAttrValue.puts_of_returned_zero hreturned)) current ?_
      simp [hposition, SetSMDynAttrValue.readValue]
    rw [step, hvalue, hcurrent]
    exact hchecked
  leaves _ hovertaken := by
    apply step_value_of_not_puts
    by_contra hputs
    have hdisturbed := h (by simpa using hputs)
    rw [hsound.disturbed i.1 hovertaken] at hdisturbed
    cases hdisturbed

end SMDynAttr

open SMDynAttr

variable {T : ElementType} [Ord T.Carrier] [Std.TransOrd T.Carrier] {ι α : Type} [DecidableEq ι]

/-- Every step of the run moves well by the registered rules. -/
def MovesAlongRules (misread : Misread) (ruleValue : RuleValue α T)
    (registrations : List (AttrRule T)) (attr_name : String) (value : α)
    (steps : List (ι × SMAccess α)) : Prop :=
  ∀ past i, past ++ [i] <+: steps →
    let isAllowed := isAttrAllowed ruleValue (registerAll registrations) misread attr_name
    MovesWell isAllowed (IsRegistered ruleValue registrations attr_name)
      (run (watchStep isAllowed) (Watched.initial value) past) i

/-- **The attribute moves along the registered transitions** in every run in which no call puts a
value between the read and the write or the roll-back of another one. -/
theorem movesAlongRules_of_undisturbed [Std.LawfulEqOrd T.Carrier] [DecidableEq T.Carrier]
    (misread : Misread) (ruleValue : RuleValue α T) (registrations : List (AttrRule T))
    (attr_name : String) (value : α) (steps : List (ι × SMAccess α))
    (h : Along (watchStep (isAttrAllowed ruleValue (registerAll registrations) misread attr_name))
      Undisturbed (Watched.initial value) steps) :
    MovesAlongRules misread ruleValue registrations attr_name value steps := by
  intro past i hpre isAllowed
  obtain ⟨rest, rfl⟩ := hpre
  have hsound : (run (watchStep isAllowed) (Watched.initial value) past).Sound isAllowed :=
    run_preserves (I := Watched.Sound isAllowed) (fun o i ho => ho.watchStep i) past
      (Watched.sound_initial value)
  have hi := (along_append.mp (along_append.mp h).1).2.1
  obtain ⟨htransition, hleaves⟩ := movesWell_of_undisturbed hsound hi
  exact ⟨fun hreturned hne => isRegistered_of_isAttrAllowed (htransition hreturned hne), hleaves⟩

/-- `dishMode`, with the transitions of a dish that stows from standby only. -/
def dishMode : Attribute where
  data_type := devEnum
  data_format := Tango.scalar
  is_writ_associated := false
  enum_labels := ["STANDBY", "OPERATE", "STOW"]
  data := none
  typed := by simp

def dishModeRules : List (AttrRule .string) :=
  [⟨"dishMode", "STANDBY", ["OPERATE", "STOW"]⟩, ⟨"dishMode", "OPERATE", ["STANDBY"]⟩,
    ⟨"dishMode", "STOW", ["STANDBY"]⟩]

/-- Two calls read STANDBY. One writes OPERATE and the other STOW. -/
def twoModes : List (Bool × SMAccess Int16) :=
  [(false, .call 1 none), (true, .call 2 none), (false, .read true), (true, .read true),
    (false, .check), (true, .check), (false, .write .succeeds)]

theorem not_movesAlongRules_twoModes :
    ¬ MovesAlongRules (fun _ _ => []) (RuleValue.enum dishMode) dishModeRules "dishMode" 0
      (twoModes ++ [(true, .write .succeeds)]) := by
  intro h
  have hregistered := (h twoModes (true, .write .succeeds) List.prefix_rfl).transition
    (by decide) (by decide)
  obtain hnone | ⟨r, hmem, ⟨-, hkey⟩, new, hnew, hvalue⟩ := hregistered "OPERATE" (by decide)
  · exact hnone ⟨"dishMode", "OPERATE", ["STANDBY"]⟩ (by simp [dishModeRules]) rfl rfl
  · obtain rfl : new = "STOW" := Option.some.inj (hnew.symm.trans (by decide))
    simp only [dishModeRules, List.mem_cons, List.not_mem_nil, or_false] at hmem
    obtain rfl | rfl | rfl := hmem
    · exact absurd (show "STANDBY" = "OPERATE" from hkey) (by decide)
    · exact absurd hvalue (by decide)
    · exact absurd (show "STOW" = "OPERATE" from hkey) (by decide)

/-- One call after the other. -/
theorem movesAlongRules_of_undisturbed_stow :
    MovesAlongRules (fun _ _ => []) (RuleValue.enum dishMode) dishModeRules "dishMode" 0
      [(false, .call 2 none), (false, .read true), (false, .check), (false, .write .succeeds),
        (true, .call 0 none), (true, .read true), (true, .check), (true, .write .failsAfter),
        (true, .write .succeeds)] :=
  movesAlongRules_of_undisturbed _ _ _ _ _ _ (by decide)

end DshLmc
