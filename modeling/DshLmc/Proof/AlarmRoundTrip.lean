import DshLmc.Proof.AlarmValues

/-!
# Alarm configuration on its way to the alarm handler

The serializer of `AlarmData` writes a line, and the handler reads it with its grammar. Here is when
the alarm that the handler has then is the alarm that was written.
-/

namespace DshLmc

open Peg

section Replace

variable {α : Type*} [DecidableEq α]

def replaceAll (oldstr newstr : List α) (str : List α) : List α :=
  match str with
  | [] => []
  | c :: rest =>
      if oldstr ≠ [] ∧ oldstr <+: c :: rest then
        newstr ++ replaceAll oldstr newstr ((c :: rest).drop oldstr.length)
      else c :: replaceAll oldstr newstr rest
termination_by str.length
decreasing_by
  · rename_i h
    have := List.length_pos_iff.mpr h.1
    simp only [List.length_drop, List.length_cons]
    omega
  · simp

variable {oldstr newstr str : List α}

theorem replaceAll_of_find_none (h : find oldstr str = none) :
    replaceAll oldstr newstr str = str := by
  induction str with
  | nil => rw [replaceAll]
  | cons c rest ih =>
      rw [find] at h
      split at h
      case isTrue => cases h
      case isFalse hnot =>
        rw [replaceAll, if_neg fun hpre => hnot hpre.2, ih (Option.map_eq_none_iff.mp h)]

theorem replaceAll_of_find_some (hne : oldstr ≠ []) {pos : Nat} (h : find oldstr str = some pos) :
    replaceAll oldstr newstr str
      = str.take pos ++ newstr ++ replaceAll oldstr newstr (str.drop (pos + oldstr.length)) := by
  induction str generalizing pos with
  | nil => simp [find, hne] at h
  | cons c rest ih =>
      rw [find] at h
      split at h
      case isTrue hpre =>
        obtain rfl := Option.some.inj h
        rw [replaceAll, if_pos ⟨hne, hpre⟩, Nat.zero_add]
        rfl
      case isFalse hnot =>
        obtain ⟨pos, hpos, rfl⟩ := Option.map_eq_some_iff.mp h
        rw [replaceAll, if_neg fun hpre => hnot hpre.2, ih hpos, Nat.succ_add]
        rfl

theorem shrinking_next (hne : oldstr ≠ []) :
    Shrinking (fun r : Replacing α => r.str.length) (Replacing.next oldstr newstr) := by
  intro r r' h
  obtain ⟨pos, hpos, rfl⟩ := Option.map_eq_some_iff.mp h
  have hstr : r.str ≠ [] := by
    intro hnil
    simp [hnil, find, hne] at hpos
  have hlength := List.length_pos_iff.mpr hne
  have hlength' := List.length_pos_iff.mpr hstr
  simp only [List.length_drop]
  omega

theorem stringFindAndReplace_snd (hne : oldstr ≠ []) (str newstr : List α) :
    (stringFindAndReplace str oldstr newstr).2 = replaceAll oldstr newstr str := by
  have hshrinking : Shrinking (fun r : Replacing α => r.str.length)
      (Replacing.next oldstr newstr) := shrinking_next hne
  have hnone := Option.map_eq_none_iff.mp (step_kleene hshrinking ⟨[], str, 0⟩)
  have hkept : ∀ r r' : Replacing α,
      r.done ++ replaceAll oldstr newstr r.str = replaceAll oldstr newstr str →
      Replacing.next oldstr newstr r = some r' →
      r'.done ++ replaceAll oldstr newstr r'.str = replaceAll oldstr newstr str := by
    intro r r' hr h
    obtain ⟨pos, hpos, rfl⟩ := Option.map_eq_some_iff.mp h
    dsimp only
    rw [← hr, replaceAll_of_find_some hne hpos, List.append_assoc, List.append_assoc,
      List.append_assoc]
  have hend : (kleene (fun r => r.str.length) (Replacing.next oldstr newstr) ⟨[], str, 0⟩).done
      ++ replaceAll oldstr newstr
        (kleene (fun r => r.str.length) (Replacing.next oldstr newstr) ⟨[], str, 0⟩).str
      = replaceAll oldstr newstr str :=
    exhaust_induction (P := fun r : Replacing α => r.done ++ replaceAll oldstr newstr r.str
      = replaceAll oldstr newstr str) hkept _ (List.nil_append _)
  rw [replaceAll_of_find_none hnone] at hend
  exact hend

end Replace

namespace AlarmData

/-- Every label replaced by its value, in the order of the labels. -/
def expandedFormula (d : AlarmData) : List Char :=
  d.m_symbols.foldl (fun text symbol => replaceAll ('$' :: symbol.1) symbol.2 text) d.m_formula

theorem expandSymbols_snd {symbols : List (List Char × List Char)} {m_formula : List Char}
    (h : 0 ≤ (expandSymbols symbols m_formula).1) :
    (expandSymbols symbols m_formula).2
      = symbols.foldl (fun text symbol => replaceAll ('$' :: symbol.1) symbol.2 text) m_formula := by
  induction symbols generalizing m_formula with
  | nil => rfl
  | cons symbol symbols ih =>
      rw [expandSymbols] at h ⊢
      split at h
      case isTrue =>
        have hnot : ¬ (0 : Int) ≤ -1 := by decide
        exact absurd h hnot
      case isFalse hfound =>
        rw [if_neg hfound, ih h, stringFindAndReplace_snd (List.cons_ne_nil _ _), List.foldl_cons]

/-- An option with what stands behind it. -/
def optionText (key : String) (value tail : List Char) : List Char :=
  ';' :: (key.toList ++ (value ++ tail))

def commandOption (key : String) (command tail : List Char) : List Char :=
  if command.isEmpty then tail else optionText key command tail

def fromEnabled (d : AlarmData) : List Char :=
  optionText "enabled=" [if d.m_enabled then '1' else '0'] []

def fromOffCommand (d : AlarmData) : List Char :=
  commandOption "off_command=" d.m_off_command d.fromEnabled

def fromOnCommand (d : AlarmData) : List Char :=
  commandOption "on_command=" d.m_on_command d.fromOffCommand

def fromMessage (d : AlarmData) : List Char := optionText "message=" d.m_message d.fromOnCommand

def fromGroup (d : AlarmData) : List Char :=
  optionText "group=" (groupText d.m_groups) d.fromMessage

def fromSilentTime (d : AlarmData) : List Char :=
  optionText "shlvd_time=" (decimalText d.m_silent_time) d.fromGroup

def fromLevel (d : AlarmData) : List Char := optionText "priority=" d.m_level d.fromSilentTime

def fromOffDelay (d : AlarmData) : List Char :=
  optionText "off_delay=" (decimalText d.m_off_delay) d.fromLevel

def fromOnDelay (d : AlarmData) : List Char :=
  optionText "on_delay=" (decimalText d.m_on_delay) d.fromOffDelay

theorem commandText_append (key : String) (command tail : List Char) :
    ';' :: (commandText key command ++ tail) = commandOption key command (';' :: tail) := by
  rw [commandText, commandOption]
  split
  · rfl
  · simp [put, optionText]

def lineText (d : AlarmData) : List Char :=
  "tag=".toList ++ (d.m_name ++ optionText "formula=" d.expandedFormula d.fromOnDelay)

theorem fields_eq (d : AlarmData) (m_formula : List Char) :
    { d with m_formula }.fields
      = "tag=".toList ++ (d.m_name ++ optionText "formula=" m_formula d.fromOnDelay) := by
  have hcommands : ';' :: (commandText "on_command=" d.m_on_command
      ++ (commandText "off_command=" d.m_off_command
      ++ ("enabled=".toList ++ [if d.m_enabled then '1' else '0']))) = d.fromOnCommand := by
    rw [commandText_append, commandText_append, fromOnCommand, fromOffCommand, fromEnabled,
      optionText]
    simp
  rw [fromOnDelay, fromOffDelay, fromLevel, fromSilentTime, fromGroup, fromMessage, ← hcommands]
  simp [fields, put, optionText]

theorem ne_nil_of_isValid {d : AlarmData} (h : d.isValid = true) :
    d.m_name ≠ [] ∧ d.m_symbols ≠ [] ∧ d.m_level ≠ [] := by
  unfold isValid at h
  split_ifs at h
  simp_all

/-- What a call that returns 0 has written. -/
theorem serialize_eq {d d' : AlarmData} {data line : List Char}
    (h : d.serializeToTangoFormat data = (0, line, d')) :
    d.isValid = true ∧ line = d.lineText := by
  have hcode : ∀ {text : List Char} {d'' : AlarmData}, ((-1 : Int), text, d'') ≠ (0, line, d') := by
    intro text d'' heq
    exact absurd (congrArg Prod.fst heq) (by simp)
  rw [serializeToTangoFormat] at h
  split at h
  case isFalse => exact absurd h hcode
  case isTrue hvalid =>
    refine ⟨hvalid, ?_⟩
    have hsymbols : ¬ d.m_symbols.isEmpty = true := by
      rw [List.isEmpty_iff]
      exact (ne_nil_of_isValid hvalid).2.1
    rw [expandFormula, if_neg hsymbols] at h
    dsimp only at h
    split at h
    case isTrue => exact absurd h hcode
    case isFalse hfound =>
      rw [expandSymbols_snd (Int.not_lt.mp hfound), fields_eq] at h
      exact (congrArg (fun result => result.2.1) h).symm

end AlarmData

namespace AlarmParse

def KeepsAlarm (P : AlarmT → Prop) (rule : Rule) : Prop :=
  ∀ a text s, P a → rule a text = some s → P s.1

variable {P : AlarmT → Prop} {p : Peg Char} {field : AlarmT → List Char → AlarmT} {rule : Rule}
  {table : GroupTable} {a final : AlarmT} {text : List Char}

theorem keepsAlarm_assign (hfield : ∀ a text word rest, P a →
    p.capture isspace text = some (word, rest) → P (field a word)) :
    KeepsAlarm P (assign p field) := by
  intro a text s ha h
  obtain ⟨⟨word, rest⟩, hcapture, rfl⟩ := Option.map_eq_some_iff.mp h
  exact hfield a text word rest ha hcapture

theorem KeepsAlarm.orEpsilon (h : KeepsAlarm P rule) : KeepsAlarm P (orEpsilon rule) := by
  intro a text s ha hs
  obtain hrule | ⟨-, hnone⟩ := Option.or_eq_some_iff.mp hs
  · exact h a text s ha hrule
  · obtain rfl := Option.some.inj hnone
    exact ha

theorem KeepsAlarm.after (p : Peg Char) (h : KeepsAlarm P rule) : KeepsAlarm P (after p rule) := by
  intro a text s ha hs
  obtain ⟨rest, -, hrule⟩ := Option.bind_eq_some_iff.mp hs
  exact h a rest s ha hrule

theorem keepsAlarm_groups (hgrp : ∀ a grp, P a → P { a with grp }) : KeepsAlarm P (groups table) := by
  have hsymGrp : KeepsAlarm P (symGrp table) := by
    intro a text s ha h
    obtain ⟨group, -, rfl⟩ := Option.map_eq_some_iff.mp h
    exact hgrp a _ ha
  intro a text s ha h
  obtain ⟨first, hfirst, rfl⟩ := Option.map_eq_some_iff.mp h
  refine exhaust_induction (P := fun s : AlarmT × List Char => P s.1) ?_ _
    (hsymGrp a text first ha hfirst)
  exact fun s s' hs hstep => (hsymGrp.after (chP '|')) s.1 s.2 s' hs hstep

theorem keepsAlarm_accepts (hrules : ∀ rule ∈ options table, KeepsAlarm P rule.2) (ha : P a)
    (h : accepts table a text = some final) : P final := by
  rw [accepts] at h
  split at h
  case isFalse => cases h
  case isTrue =>
    obtain rfl := Option.some.inj h
    refine exhaust_induction (P := fun s : AlarmT × List Char => P s.1) ?_ _ ha
    intro s s' hs hstep
    obtain ⟨rule, hmem, hrule⟩ := List.exists_of_findSome?_eq_some hstep
    exact ((hrules rule hmem).after _).after _ s.1 s.2 s' hs hrule

/-- What the options can have made of an alarm that has no fields but its name and its formula. -/
structure Sound (name formula : List Char) (a : AlarmT) : Prop where
  name : a.name = name
  formula : a.formula = formula
  lev : a.lev ∈ [[], "fault".toList, "warning".toList, "log".toList]
  msg : ';' ∉ a.msg
  cmd_name_a : ';' ∉ a.cmd_name_a
  cmd_name_n : ';' ∉ a.cmd_name_n

theorem level_of_capture {word rest : List Char}
    (h : (strP "fault" ||| strP "warning" ||| strP "log").capture isspace text = some (word, rest)) :
    word ∈ ["fault".toList, "warning".toList, "log".toList] := by
  obtain ⟨hsplit, hparse⟩ := capture_eq_some h
  have hdrop : (word ++ rest).dropWhile isspace = word ++ rest := by
    rw [← hsplit, List.dropWhile_idempotent]
  have hword : ∀ level : String, ∀ again : Reader Char,
      (strP level).read isspace again (word ++ rest) = some rest → word = level.toList := by
    intro level again hread
    have hexact : (exact level.toList).read isspace again ((word ++ rest).dropWhile isspace)
      = some rest := hread
    rw [hdrop] at hexact
    exact List.append_cancel_right (prefix_of_read_exact hexact)
  rw [parse_eq_read, read_alt, read_alt] at hparse
  obtain hparse | ⟨-, hlog⟩ := Option.or_eq_some_iff.mp hparse
  · obtain hfault | ⟨-, hwarning⟩ := Option.or_eq_some_iff.mp hparse
    · simp [hword _ _ hfault]
    · simp [hword _ _ hwarning]
  · simp [hword _ _ hlog]

theorem keepsAlarm_sound (name formula : List Char) :
    ∀ rule ∈ options table, KeepsAlarm (Sound name formula) rule.2 := by
  have hname : ∀ {text word rest : List Char},
      AlarmParse.name.capture isspace text = some (word, rest) → ';' ∉ word :=
    fun h => builds_name.of_capture List.not_mem_nil not_mem_append h
  have hmsg : ∀ {text word rest : List Char},
      (plus msgChar).capture isspace text = some (word, rest) → ';' ∉ word := by
    intro text word rest h
    have hplain : (plus msgChar).Plain ';' ';' := by simp [msgChar]
    exact (hplain.builds_not_mem rfl).of_capture List.not_mem_nil not_mem_append h
  simp only [options, onDelay, offDelay, level, silentTime, group, msg, onCommand, offCommand,
    enabled, List.forall_mem_cons]
  refine ⟨?_, ?_, ?_, ?_, ?_, ?_, ?_, ?_, ?_, List.forall_mem_nil _⟩
  · refine KeepsAlarm.orEpsilon (keepsAlarm_assign ?_)
    exact fun a _ _ _ ha _ => { ha with }
  · refine KeepsAlarm.orEpsilon (keepsAlarm_assign ?_)
    exact fun a _ _ _ ha _ => { ha with }
  · refine keepsAlarm_assign ?_
    exact fun a _ _ _ ha h => { ha with lev := List.mem_cons_of_mem _ (level_of_capture h) }
  · refine KeepsAlarm.orEpsilon (keepsAlarm_assign ?_)
    exact fun a _ _ _ ha _ => { ha with }
  · refine keepsAlarm_groups ?_
    exact fun a _ ha => { ha with }
  · refine keepsAlarm_assign ?_
    exact fun a _ _ _ ha h => { ha with msg := hmsg h }
  · refine KeepsAlarm.orEpsilon (keepsAlarm_assign ?_)
    exact fun a _ _ _ ha h => { ha with cmd_name_a := hname h }
  · refine KeepsAlarm.orEpsilon (keepsAlarm_assign ?_)
    exact fun a _ _ _ ha h => { ha with cmd_name_n := hname h }
  · refine keepsAlarm_assign ?_
    exact fun a _ _ _ ha _ => { ha with }

theorem full_tag (text : List Char) :
    full table ("tag=".toList ++ text)
      = (assign nameAlm (fun a word => { a with name := word }) .cleared text).bind fun named =>
        (after separator (after (strP "formula=") formulaOption) named.1 named.2).bind fun s =>
        accepts table s.1 s.2 := by
  rw [full, expression, after_strP (by simp [isspace]) (by decide)]
  cases assign nameAlm (fun a word => { a with name := word }) .cleared text with
  | none => rfl
  | some named =>
      rw [Option.bind_some, Option.bind_some]
      cases after separator (after (strP "formula=") formulaOption) named.1 named.2 with
      | none => rfl
      | some s => rfl

theorem sound_cleared (name formula : List Char) :
    Sound name formula { AlarmT.cleared with name, formula } where
  name := rfl
  formula := rfl
  lev := List.mem_cons_self
  msg := List.not_mem_nil
  cmd_name_a := List.not_mem_nil
  cmd_name_n := List.not_mem_nil

/-- The name of an accepted line is what was read for it. -/
theorem sound_of_full (h : full table ("tag=".toList ++ text) = some final) :
    (∃ rest, nameAlm.capture isspace text = some (final.name, rest))
      ∧ Sound final.name final.formula final := by
  rw [full_tag] at h
  obtain ⟨named, hnamed, h⟩ := Option.bind_eq_some_iff.mp h
  obtain ⟨⟨word, rest⟩, hcapture, rfl⟩ := Option.map_eq_some_iff.mp hnamed
  obtain ⟨s, hs, haccepts⟩ := Option.bind_eq_some_iff.mp h
  have hformula : KeepsAlarm (fun a => ∃ formula, a = { AlarmT.cleared with name := word, formula })
      formulaOption := by
    rintro a text s ⟨before, rfl⟩ hread
    obtain ⟨rest, -, rfl⟩ := Option.map_eq_some_iff.mp hread
    exact ⟨_, rfl⟩
  obtain ⟨formula, hformula⟩ := ((hformula.after _).after _) _ _ s ⟨[], rfl⟩ hs
  have hsound : Sound word formula final :=
    keepsAlarm_accepts (keepsAlarm_sound word formula) (hformula ▸ sound_cleared word formula)
      haccepts
  rw [hsound.name, hsound.formula]
  exact ⟨⟨rest, hcapture⟩, hsound⟩

theorem isSymbolAttrName_of_capture {word rest : List Char}
    (h : nameAlm.capture isspace text = some (word, rest)) :
    ∀ c ∈ word, isSymbolAttrName c = true := by
  have hsingle : ∀ c, isSymbolAttrName c = true → ∀ c' ∈ [c], isSymbolAttrName c' = true := by
    intro c hc c' hc'
    rwa [List.mem_singleton.mp hc']
  have hbuilds : nameAlm.Builds isspace fun used => ∀ c ∈ used, isSymbolAttrName c = true :=
    ⟨hsingle, hsingle⟩
  refine hbuilds.of_capture (List.forall_mem_nil _) ?_ h
  exact fun hu hv => List.forall_mem_append.mpr ⟨hu, hv⟩

theorem after_formula (a : AlarmT) (value tail : List Char) :
    after separator (after (strP "formula=") formulaOption) a
        (AlarmData.optionText "formula=" value tail)
      = formulaOption a (value ++ tail) := by
  rw [AlarmData.optionText, after_separator, after_strP (by simp [isspace]) (by decide)]

end AlarmParse

open AlarmParse

def GroupTable.bits (table : GroupTable) (groups : List (List Char)) : UInt32 :=
  groups.foldl (fun grp name => grp ||| (table.find? fun group => group.1 = name).elim 0 Prod.snd) 0

namespace AlarmData

/-- The alarm of the handler is the alarm that was written. -/
structure Carried (table : GroupTable) (d : AlarmData) (a : AlarmT) : Prop where
  name : a.name = d.m_name
  formula : a.formula = d.expandedFormula
  priority : a.lev = d.m_level
  on_delay : (a.on_delay : Int) = d.m_on_delay.toInt
  off_delay : (a.off_delay : Int) = d.m_off_delay.toInt
  shlvd_time : a.silent_time = d.m_silent_time.toInt
  group : a.grp = table.bits d.m_groups
  message : a.msg.filter (fun c => !isspace c) = d.m_message.filter fun c => !isspace c
  on_command : a.cmd_name_a = d.m_on_command
  off_command : a.cmd_name_n = d.m_off_command
  enabled : a.enabled = d.m_enabled

/-- The line is accepted in full, and the alarm that was read is the one that was written. -/
def Survives (table : GroupTable) (d : AlarmData) (line : List Char) : Prop :=
  ∃ a, full table line = some a ∧ Carried table d a

def IsCommand (command : List Char) : Prop := command = [] ∨ AlarmParse.name.parse isspace command = some []

/-- What the handler can read. -/
structure Portable (table : GroupTable) (d : AlarmData) : Prop where
  name : ∀ c ∈ d.m_name, isSymbolAttrName c = true
  formula : Starts d.expandedFormula ∧ AlarmParse.formula d.expandedFormula = some []
  priority : d.m_level ∈ ["fault".toList, "warning".toList, "log".toList]
  on_delay : 0 ≤ d.m_on_delay.toInt
  off_delay : 0 ≤ d.m_off_delay.toInt
  group : ∃ s, groups table .cleared (groupText d.m_groups ++ d.fromMessage) = some s
    ∧ s.2.dropWhile isspace = d.fromMessage ∧ s.1.grp = table.bits d.m_groups
  message : ';' ∉ d.m_message ∧ ¬ Blank d.m_message
  on_command : IsCommand d.m_on_command
  off_command : IsCommand d.m_off_command

variable {table : GroupTable} {d : AlarmData} {a final : AlarmT} {key : String}
  {command tail : List Char} {field : AlarmT → List Char → AlarmT}

theorem ends_optionText (key : String) (value tail : List Char) :
    Ends ';' (optionText key value tail) := fun _ hc => (Option.some.inj hc).symm

theorem ends_commandOption (hends : Ends ';' tail) : Ends ';' (commandOption key command tail) := by
  rw [commandOption]
  split
  · exact hends
  · exact ends_optionText key command tail

theorem accepts_optionText (option : KeyedRule) (hmem : option ∈ options table) {value : List Char}
    {a' : AlarmT} (h : option.2 a (value ++ tail) = some (a', tail)) :
    accepts table a (optionText option.1 value tail) = accepts table a' tail := by
  rw [optionText, accepts_key hmem, h, Option.bind_some]

theorem accepts_fromOnDelay (hlevel : d.m_level ∈ ["fault".toList, "warning".toList, "log".toList])
    (honDelay : 0 ≤ d.m_on_delay.toInt) (hoffDelay : 0 ≤ d.m_off_delay.toInt) :
    accepts table a d.fromOnDelay
      = accepts table { a with
          on_delay := d.m_on_delay.toInt.toNat
          off_delay := d.m_off_delay.toInt.toNat
          lev := d.m_level
          silent_time := d.m_silent_time.toInt } d.fromGroup :=
  calc accepts table a d.fromOnDelay
      = accepts table { a with on_delay := d.m_on_delay.toInt.toNat } d.fromOffDelay :=
        accepts_optionText onDelay (by simp [options])
          (delay_append (ends_optionText _ _ _) honDelay fun a n => { a with on_delay := n })
    _ = accepts table { a with
          on_delay := d.m_on_delay.toInt.toNat
          off_delay := d.m_off_delay.toInt.toNat } d.fromLevel :=
        accepts_optionText offDelay (by simp [options])
          (delay_append (ends_optionText _ _ _) hoffDelay fun a n => { a with off_delay := n })
    _ = accepts table { a with
          on_delay := d.m_on_delay.toInt.toNat
          off_delay := d.m_off_delay.toInt.toNat
          lev := d.m_level } d.fromSilentTime :=
        accepts_optionText level (by simp [options]) (level_append (ends_optionText _ _ _) hlevel)
    _ = _ :=
        accepts_optionText silentTime (by simp [options]) (silentTime_append (ends_optionText _ _ _))

theorem accepts_fromEnabled :
    accepts table a d.fromEnabled = some { a with enabled := d.m_enabled } := by
  refine (accepts_optionText enabled (by simp [options]) ?_).trans (accepts_nil table _)
  rw [List.append_nil, enabled_append]

theorem accepts_commandOption (hmem : (key, orEpsilon (assign AlarmParse.name field)) ∈ options table)
    (hends : Ends ';' tail) (hfield : field a [] = a) (hcommand : IsCommand command) :
    accepts table a (commandOption key command tail) = accepts table (field a command) tail := by
  rw [commandOption]
  split
  case isTrue hempty =>
    rw [List.isEmpty_iff.mp hempty, hfield]
  case isFalse hempty =>
    have hname := hcommand.resolve_left fun hnil => hempty (List.isEmpty_iff.mpr hnil)
    exact accepts_optionText _ hmem (command_append hends hname)

/-- What was accepted is a command, where the alarm then has it. -/
theorem isCommand_of_accepts (hmem : (key, orEpsilon (assign AlarmParse.name field)) ∈ options table)
    (hends : Ends ';' tail) (hsemi : ';' ∉ command) (hfield : field a [] = a)
    (h : accepts table a (commandOption key command tail) = some final) :
    ∃ word, accepts table (field a word) tail = some final ∧ (word = command → IsCommand command) := by
  rw [commandOption] at h
  split at h
  case isTrue hempty =>
    refine ⟨[], ?_, fun _ => .inl (List.isEmpty_iff.mp hempty)⟩
    rw [hfield]
    exact h
  case isFalse =>
    obtain haccepts | ⟨word, haccepts, hword⟩ := accepts_command hmem hends hsemi h
    · refine ⟨[], ?_, fun hnil => .inl hnil.symm⟩
      rw [hfield]
      exact haccepts
    · exact ⟨word, haccepts, fun heq => .inr (hword heq)⟩

theorem ends_fromOnCommand (d : AlarmData) : Ends ';' d.fromOnCommand :=
  ends_commandOption (ends_commandOption (ends_optionText _ _ _))

theorem accepts_fromMessage (table : GroupTable) (a : AlarmT) (hsemi : ';' ∉ d.m_message)
    (hvisible : ¬ Blank d.m_message) :
    ∃ word, word.filter (fun c => !isspace c) = d.m_message.filter (fun c => !isspace c)
      ∧ accepts table a d.fromMessage = accepts table { a with msg := word } d.fromOnCommand := by
  obtain ⟨word, spaces, hword, hblank, hmsg⟩ :=
    msg_append (a := a) d.ends_fromOnCommand hsemi hvisible
  refine ⟨word, hword, ?_⟩
  have hmem : msg ∈ options table := by simp [options]
  refine (accepts_key hmem a _).trans ?_
  rw [hmsg, Option.bind_some, accepts_blanks hblank]

theorem visible_of_accepts (h : accepts table a d.fromMessage = some final) :
    ¬ Blank d.m_message := by
  intro hblank
  have hmem : msg ∈ options table := by simp [options]
  have hnone := (accepts_key hmem a _).symm.trans h
  rw [msg_of_blank d.ends_fromOnCommand hblank] at hnone
  cases hnone

/-- A message of an accepted line. -/
theorem message_of_accepts (hsemi : ';' ∉ d.m_message)
    (h : accepts table a d.fromMessage = some final) :
    ¬ Blank d.m_message
      ∧ ∃ word, accepts table { a with msg := word } d.fromOnCommand = some final := by
  have hvisible : ¬ Blank d.m_message := visible_of_accepts h
  obtain ⟨word, -, hword⟩ := accepts_fromMessage table a hsemi hvisible
  exact ⟨hvisible, word, hword.symm.trans h⟩

/-! ### The round trip -/

/-- A line with a name and a formula that can be read. -/
theorem full_lineText (hne : d.m_name ≠ []) (hname : ∀ c ∈ d.m_name, isSymbolAttrName c = true)
    (hstarts : Starts d.expandedFormula) (hformula : AlarmParse.formula d.expandedFormula = some []) :
    full table d.lineText
      = accepts table { AlarmT.cleared with name := d.m_name, formula := d.expandedFormula }
          d.fromOnDelay := by
  have hends : Ends ';' d.fromOnDelay := ends_optionText _ _ _
  rw [lineText, full_tag, nameAlm_append (ends_optionText _ _ _) hne hname, Option.bind_some,
    after_formula, formulaOption_append hends hstarts hformula, Option.bind_some]

theorem accepts_fromOnCommand (honCommand : IsCommand d.m_on_command)
    (hoffCommand : IsCommand d.m_off_command) (hcmd_name_a : a.cmd_name_a = [])
    (hcmd_name_n : a.cmd_name_n = []) :
    accepts table a d.fromOnCommand
      = some { a with
          cmd_name_a := d.m_on_command
          cmd_name_n := d.m_off_command
          enabled := d.m_enabled } := by
  have hends : Ends ';' d.fromEnabled := ends_optionText _ _ _
  have honCommand_mem : onCommand ∈ options table := by simp [options]
  have hoffCommand_mem : offCommand ∈ options table := by simp [options]
  have hon : { a with cmd_name_a := [] } = a := by rw [← hcmd_name_a]
  have hoff : { a with cmd_name_a := d.m_on_command, cmd_name_n := [] }
      = { a with cmd_name_a := d.m_on_command } := by rw [← hcmd_name_n]
  calc accepts table a d.fromOnCommand
      = accepts table { a with cmd_name_a := d.m_on_command } d.fromOffCommand :=
        accepts_commandOption honCommand_mem (ends_commandOption hends) hon honCommand
    _ = accepts table { a with cmd_name_a := d.m_on_command, cmd_name_n := d.m_off_command }
          d.fromEnabled := accepts_commandOption hoffCommand_mem hends hoff hoffCommand
    _ = _ := accepts_fromEnabled

theorem survives_of_portable (h : d.Portable table) (hne : d.m_name ≠ []) :
    d.Survives table d.lineText := by
  obtain ⟨s, hs, hrest, hgrp⟩ := h.group
  let read : AlarmT := { AlarmT.cleared with
    name := d.m_name
    formula := d.expandedFormula
    on_delay := d.m_on_delay.toInt.toNat
    off_delay := d.m_off_delay.toInt.toNat
    lev := d.m_level
    silent_time := d.m_silent_time.toInt
    grp := table.bits d.m_groups }
  obtain ⟨word, hword, hmessage⟩ :=
    accepts_fromMessage table read h.message.1 h.message.2
  have hfull : full table d.lineText = some { read with
      msg := word
      cmd_name_a := d.m_on_command
      cmd_name_n := d.m_off_command
      enabled := d.m_enabled } :=
    calc full table d.lineText
        = accepts table { AlarmT.cleared with name := d.m_name, formula := d.expandedFormula }
            d.fromOnDelay := full_lineText hne h.name h.formula.1 h.formula.2
      _ = accepts table { read with grp := 0 } d.fromGroup :=
          accepts_fromOnDelay h.priority h.on_delay h.off_delay
      _ = accepts table read d.fromMessage := by
          rw [fromGroup, optionText, accepts_groups_of_read rfl hs hrest, hgrp]
      _ = accepts table { read with msg := word } d.fromOnCommand := hmessage
      _ = _ := accepts_fromOnCommand h.on_command h.off_command rfl rfl
  refine ⟨_, hfull, ⟨rfl, rfl, rfl, ?_, ?_, rfl, rfl, hword, rfl, rfl, rfl⟩⟩
  · exact Int.toNat_of_nonneg h.on_delay
  · exact Int.toNat_of_nonneg h.off_delay

/-- The commands of an accepted line, where the alarm has them. -/
theorem isCommand_of_fromOnCommand (honCommand : ';' ∉ d.m_on_command)
    (hoffCommand : ';' ∉ d.m_off_command) (hcmd_name_a : a.cmd_name_a = [])
    (hcmd_name_n : a.cmd_name_n = []) (h : accepts table a d.fromOnCommand = some final) :
    final.grp = a.grp ∧ (final.cmd_name_a = d.m_on_command → IsCommand d.m_on_command)
      ∧ (final.cmd_name_n = d.m_off_command → IsCommand d.m_off_command) := by
  have hends : Ends ';' d.fromEnabled := ends_optionText _ _ _
  have honCommand_mem : onCommand ∈ options table := by simp [options]
  have hoffCommand_mem : offCommand ∈ options table := by simp [options]
  obtain ⟨word, haccepts, hword⟩ := isCommand_of_accepts honCommand_mem (ends_commandOption hends)
    honCommand (by rw [← hcmd_name_a]) h
  obtain ⟨word', haccepts, hword'⟩ := isCommand_of_accepts hoffCommand_mem hends hoffCommand
    (by rw [← hcmd_name_n]) haccepts
  rw [accepts_fromEnabled] at haccepts
  obtain rfl := Option.some.inj haccepts
  exact ⟨rfl, hword, hword'⟩

theorem not_mem_groupText {groups : List (List Char)} (h : ∀ name ∈ groups, ';' ∉ name) :
    ';' ∉ groupText groups := by
  induction groups with
  | nil => decide
  | cons group groups ih =>
      obtain ⟨hgroup, hgroups⟩ := List.forall_mem_cons.mp h
      cases groups with
      | nil => exact hgroup
      | cons other groups =>
          exact not_mem_append (not_mem_append hgroup (by decide)) (ih hgroups)

theorem portable_of_survives (hnames : ∀ group ∈ table, ';' ∉ group.1)
    (hknown : ∀ name ∈ d.m_groups, name ∈ table.map Prod.fst) (hvalid : d.isValid = true)
    (h : d.Survives table d.lineText) : d.Portable table := by
  obtain ⟨final, hfull, hcarried⟩ := h
  obtain ⟨hne, -, hlevel⟩ := ne_nil_of_isValid hvalid
  obtain ⟨⟨rest, hcapture⟩, hsound⟩ := sound_of_full hfull
  have hname : ∀ c ∈ d.m_name, isSymbolAttrName c = true :=
    hcarried.name ▸ isSymbolAttrName_of_capture hcapture
  rw [lineText, full_tag, nameAlm_append (ends_optionText _ _ _) hne hname, Option.bind_some,
    after_formula] at hfull
  obtain ⟨s, hs, haccepts⟩ := Option.bind_eq_some_iff.mp hfull
  have hends : Ends ';' d.fromOnDelay := ends_optionText _ _ _
  have hformula : s.1.formula = d.expandedFormula := by
    obtain ⟨rest, -, rfl⟩ := Option.map_eq_some_iff.mp hs
    have hkept := keepsAlarm_accepts (keepsAlarm_sound _ _) (sound_cleared _ _) haccepts
    exact hkept.formula.symm.trans hcarried.formula
  obtain ⟨hstarts, hread, rfl⟩ := formulaOption_eq_some hends hs hformula
  have hpriority : d.m_level ∈ ["fault".toList, "warning".toList, "log".toList] := by
    have hlev := hsound.lev
    rw [hcarried.priority] at hlev
    exact (List.mem_cons.mp hlev).resolve_left hlevel
  have honDelay : 0 ≤ d.m_on_delay.toInt := hcarried.on_delay ▸ Int.natCast_nonneg _
  have hoffDelay : 0 ≤ d.m_off_delay.toInt := hcarried.off_delay ▸ Int.natCast_nonneg _
  have hgroups : ';' ∉ groupText d.m_groups := by
    refine not_mem_groupText fun name hname => ?_
    obtain ⟨group, hgroup, rfl⟩ := List.mem_map.mp (hknown name hname)
    exact hnames group hgroup
  have hmessage : ';' ∉ d.m_message := by
    intro hsemi
    have hvisible : ';' ∈ d.m_message.filter fun c => !isspace c :=
      List.mem_filter.mpr ⟨hsemi, rfl⟩
    rw [← hcarried.message] at hvisible
    exact hsound.msg (List.mem_filter.mp hvisible).1
  rw [accepts_fromOnDelay hpriority honDelay hoffDelay, fromGroup, optionText] at haccepts
  obtain ⟨s, hs, hrest, haccepts⟩ := accepts_groups hnames rfl hgroups haccepts
  obtain ⟨hvisible, word, haccepts⟩ := message_of_accepts hmessage haccepts
  obtain ⟨hgrp, honCommand, hoffCommand⟩ := isCommand_of_fromOnCommand
    (hcarried.on_command ▸ hsound.cmd_name_a) (hcarried.off_command ▸ hsound.cmd_name_n) rfl rfl
    haccepts
  exact {
    name := hname
    formula := ⟨hstarts, hread⟩
    priority := hpriority
    on_delay := honDelay
    off_delay := hoffDelay
    group := ⟨s, hs, hrest, hgrp.symm.trans hcarried.group⟩
    message := ⟨hmessage, hvisible⟩
    on_command := honCommand hcarried.on_command
    off_command := hoffCommand hcarried.off_command }

theorem portable_of_line (data : List Char) {line : List Char} {d' : AlarmData}
    (hline : d.serializeToTangoFormat data = (0, line, d')) (hnames : ∀ group ∈ table, ';' ∉ group.1)
    (hknown : ∀ name ∈ d.m_groups, name ∈ table.map Prod.fst) (h : d.Survives table line) :
    d.Portable table := by
  obtain ⟨hvalid, rfl⟩ := serialize_eq hline
  exact portable_of_survives hnames hknown hvalid h

/-- **When an alarm survives the trip.** That the handler can read it is always enough. It is needed as
well, as long as no group of the handler has a separator in its name. -/
theorem survives_iff_portable (table : GroupTable) (d : AlarmData) (data : List Char)
    {line : List Char} {d' : AlarmData} (hline : d.serializeToTangoFormat data = (0, line, d'))
    (hknown : ∀ name ∈ d.m_groups, name ∈ table.map Prod.fst) :
    (d.Portable table → d.Survives table line)
      ∧ ((∀ group ∈ table, ';' ∉ group.1) → (d.Survives table line ↔ d.Portable table)) := by
  have henough : d.Portable table → d.Survives table line := by
    intro h
    obtain ⟨hvalid, rfl⟩ := serialize_eq hline
    exact survives_of_portable h (ne_nil_of_isValid hvalid).1
  exact ⟨henough, fun hnames => ⟨portable_of_line data hline hnames hknown, henough⟩⟩

def sample (groups : List String) (level message : String) : AlarmData where
  m_name := "rx".toList
  m_formula := "$a".toList
  m_symbols := [("a".toList, "1".toList)]
  m_level := level.toList
  m_groups := groups.map String.toList
  m_message := message.toList

/-- The groups of a handler whose property lists none. -/
def defaultGroups : GroupTable := GroupTable.initStaticMap []

theorem expandedFormula_sample (groups : List String) (level message : String) :
    (sample groups level message).expandedFormula = ['1'] := by
  simp [expandedFormula, sample, replaceAll]

theorem survives_iff_portable_sample : ∃ line d',
    (sample ["gr_none"] "log" "hot").serializeToTangoFormat [] = (0, line, d')
      ∧ (sample ["gr_none"] "log" "hot").Survives defaultGroups line := by
  refine ⟨_, _, rfl, (survives_iff_portable defaultGroups _ [] rfl (by decide)).1 ?_⟩
  exact {
    name := by simp [sample, isSymbolAttrName]
    formula := by
      rw [expandedFormula_sample]
      exact ⟨by decide, by decide⟩
    priority := by decide
    on_delay := by decide
    off_delay := by decide
    group := ⟨_, rfl, rfl, rfl⟩
    message := ⟨by decide, fun hblank => absurd (hblank 'h' (by decide)) (by decide)⟩
    on_command := .inl rfl
    off_command := .inl rfl }

theorem not_survives_sample :
    (∃ line d', (sample [] "log" "hot").serializeToTangoFormat [] = (0, line, d')
        ∧ ¬ (sample [] "log" "hot").Survives defaultGroups line)
      ∧ ∃ line d', (sample ["gr_none"] "critical" "hot").serializeToTangoFormat [] = (0, line, d')
        ∧ ¬ (sample ["gr_none"] "critical" "hot").Survives defaultGroups line := by
  have hnames : ∀ group ∈ defaultGroups, ';' ∉ group.1 := by decide
  refine ⟨⟨_, _, rfl, fun h => ?_⟩, _, _, rfl, fun h => ?_⟩
  · have hportable : (sample [] "log" "hot").Portable defaultGroups :=
      portable_of_line [] rfl hnames (by decide) h
    obtain ⟨s, hs, -⟩ := hportable.group
    cases hs
  · have hportable : (sample ["gr_none"] "critical" "hot").Portable defaultGroups :=
      portable_of_line [] rfl hnames (by decide) h
    exact absurd hportable.priority (by decide)

end AlarmData

end DshLmc
