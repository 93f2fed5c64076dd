import Mathlib.Data.List.Pairwise
import DshLmc.Alarm.AlarmGrammar

/-!
# Reading the options of an alarm

The options of an alarm may come in any order, and the handler reads them one at a time until nothing
it knows follows. It accepts a text when that is its end. Here is what it makes of one option, of which
the key decides, with more options behind it.
-/

namespace DshLmc.AlarmParse

open Peg

variable {table : GroupTable} {a a' : AlarmT} {text rest : List Char} {rule : Rule}

/-- The rule leaves the end of its text. -/
def Leaves (rule : Rule) : Prop := ∀ a text s, rule a text = some s → s.2 <:+ text

theorem leaves_assign (p : Peg Char) (field : AlarmT → List Char → AlarmT) :
    Leaves (assign p field) := by
  intro a text s h
  obtain ⟨⟨word, rest⟩, hcapture, rfl⟩ := Option.map_eq_some_iff.mp h
  obtain ⟨hsplit, -⟩ := capture_eq_some hcapture
  exact (hsplit ▸ List.suffix_append word rest).trans (List.dropWhile_suffix isspace)

theorem Leaves.orEpsilon (h : Leaves rule) : Leaves (orEpsilon rule) := by
  intro a text s hs
  obtain hrule | ⟨-, hnone⟩ := Option.or_eq_some_iff.mp hs
  · exact h a text s hrule
  · obtain rfl := Option.some.inj hnone
    exact List.suffix_refl text

theorem Leaves.after (p : Peg Char) (h : Leaves rule) : Leaves (after p rule) := by
  intro a text s hs
  obtain ⟨rest, hp, hrule⟩ := Option.bind_eq_some_iff.mp hs
  exact (h a rest s hrule).trans (p.keeps_parse text rest hp)

theorem leaves_symGrp (table : GroupTable) : Leaves (symGrp table) := by
  intro a text s h
  obtain ⟨group, hgroup, rfl⟩ := Option.map_eq_some_iff.mp h
  obtain ⟨name, -, rfl⟩ := Option.map_eq_some_iff.mp hgroup
  exact (List.drop_suffix _ _).trans (List.dropWhile_suffix isspace)

theorem leaves_groups (table : GroupTable) : Leaves (groups table) := by
  intro a text s h
  obtain ⟨first, hfirst, rfl⟩ := Option.map_eq_some_iff.mp h
  refine exhaust_induction (P := fun s : AlarmT × List Char => s.2 <:+ text) ?_ _
    (leaves_symGrp table a text first hfirst)
  intro s s' hs hstep
  exact ((leaves_symGrp table).after (chP '|') s.1 s.2 s' hstep).trans hs

theorem leaves_of_mem {key : String} (h : (key, rule) ∈ options table) : Leaves rule := by
  simp only [options, onDelay, offDelay, level, silentTime, group, msg, onCommand, offCommand,
    enabled, List.mem_cons, Prod.mk.injEq, List.not_mem_nil, or_false] at h
  obtain ⟨-, rfl⟩ | ⟨-, rfl⟩ | ⟨-, rfl⟩ | ⟨-, rfl⟩ | ⟨-, rfl⟩ | ⟨-, rfl⟩ | ⟨-, rfl⟩ | ⟨-, rfl⟩
    | ⟨-, rfl⟩ := h
  case inr.inr.inr.inr.inl => exact leaves_groups table
  all_goals first
    | exact leaves_assign _ _
    | exact (leaves_assign _ _).orEpsilon

theorem after_separator (text : List Char) : after separator rule a (';' :: text) = rule a text := rfl

theorem after_separator_of_ne {c : Char} (hc : text.dropWhile isspace = c :: rest) (hne : c ≠ ';') :
    after separator rule a text = none := by
  have hparse : separator.parse isspace text = none := by
    rw [separator, chP, parse_blanks_seq, hc]
    simp [Peg.read, hne]
  rw [after, hparse]
  rfl

theorem after_separator_of_blank (hblank : text.dropWhile isspace = []) :
    after separator rule a text = none := by
  have hparse : separator.parse isspace text = none := by
    rw [separator, chP, parse_blanks_seq, hblank]
    rfl
  rw [after, hparse]
  rfl

theorem parse_strP {key : String} (hkey : ∀ c ∈ key.toList.head?, isspace c = false)
    (hne : key.toList ≠ []) (p : String) (text : List Char) :
    (strP p).parse isspace (key.toList ++ text)
      = (exact p.toList).read isspace (Peg.reads isspace (strP p) (key.toList ++ text).length)
          (key.toList ++ text) := by
  have hdrop : (key.toList ++ text).dropWhile isspace = key.toList ++ text := by
    cases hlist : key.toList with
    | nil => exact absurd hlist hne
    | cons c word =>
        rw [hlist] at hkey
        rw [List.cons_append, List.dropWhile_cons_of_neg]
        simp [hkey c rfl]
  rw [strP, parse_blanks_seq, hdrop]

theorem after_strP {key : String} (hkey : ∀ c ∈ key.toList.head?, isspace c = false)
    (hne : key.toList ≠ []) (text : List Char) :
    after (strP key) rule a (key.toList ++ text) = rule a text := by
  rw [after, parse_strP hkey hne, read_exact_append]
  rfl

def Apart (key key' : String) : Prop := ¬ key.toList <+: key'.toList ∧ ¬ key'.toList <+: key.toList

theorem keys_apart (table : GroupTable) :
    (options table).Pairwise fun rule rule' => Apart rule.1 rule'.1 := by
  rw [← List.pairwise_map (f := Prod.fst) (R := Apart)]
  change List.Pairwise Apart ["on_delay=", "off_delay=", "priority=", "shlvd_time=", "group=",
    "message=", "on_command=", "off_command=", "enabled="]
  unfold Apart
  decide

instance : Std.Symm fun rule rule' : KeyedRule => Apart rule.1 rule'.1 := ⟨fun _ _ h => And.symm h⟩

theorem key_ne_nil {option : KeyedRule} (h : option ∈ options table) :
    option.1.toList ≠ [] ∧ ∀ c ∈ option.1.toList.head?, isspace c = false := by
  have hkeys : ∀ key ∈ ["on_delay=", "off_delay=", "priority=", "shlvd_time=", "group=", "message=",
      "on_command=", "off_command=", "enabled="],
      key.toList ≠ [] ∧ ∀ c ∈ key.toList.head?, isspace c = false := by
    simp [isspace]
  exact hkeys _ (List.mem_map_of_mem h)

theorem after_strP_of_apart {key key' : String} (happart : Apart key key')
    (hkey : ∀ c ∈ key'.toList.head?, isspace c = false) (hne : key'.toList ≠ []) (text : List Char) :
    after (strP key) rule a (key'.toList ++ text) = none := by
  rw [after, parse_strP hkey hne]
  cases hexact : (exact key.toList).read isspace
      (Peg.reads isspace (strP key) (key'.toList ++ text).length) (key'.toList ++ text) with
  | none => rfl
  | some rest =>
      have hpre : key.toList <+: key'.toList ++ text := ⟨rest, (prefix_of_read_exact hexact).symm⟩
      obtain h | h := List.prefix_or_prefix_of_prefix hpre (List.prefix_append _ _)
      · exact absurd h happart.1
      · exact absurd h happart.2

/-- Behind a separator the key says which option is read. -/
theorem option_of_mem {keyed : KeyedRule} (h : keyed ∈ options table) (a : AlarmT)
    (text : List Char) :
    option table a (';' :: (keyed.1.toList ++ text)) = keyed.2 a text := by
  obtain ⟨hne, hkey⟩ := key_ne_nil h
  have hother : ∀ other ∈ options table, other ≠ keyed →
      after separator (after (strP other.1) other.2) a (';' :: (keyed.1.toList ++ text)) = none := by
    intro other hmem hother
    rw [after_separator]
    have happart : Apart other.1 keyed.1 := (keys_apart table).forall hmem h hother
    exact after_strP_of_apart happart hkey hne text
  have hthis : after separator (after (strP keyed.1) keyed.2) a (';' :: (keyed.1.toList ++ text))
      = keyed.2 a text := by
    rw [after_separator, after_strP hkey hne]
  rw [option, ← hthis]
  cases hfind : (options table).findSome? _ with
  | none => exact (List.findSome?_eq_none_iff.mp hfind _ h).symm
  | some s =>
      obtain ⟨found, hmem, hs⟩ := List.exists_of_findSome?_eq_some hfind
      by_cases hfound : found = keyed
      · rw [hfound] at hs
        exact hs.symm
      · rw [hother found hmem hfound] at hs
        cases hs

/-- The alarm, where the options are the whole text. -/
def accepts (table : GroupTable) (a : AlarmT) (text : List Char) : Option AlarmT :=
  let s := allOptions table a text
  if s.2.dropWhile isspace = [] then some s.1 else none

theorem shrinking_option (table : GroupTable) :
    Shrinking (fun s : AlarmT × List Char => s.2.length) fun s => option table s.1 s.2 := by
  intro s s' h
  obtain ⟨rule, hmem, hrule⟩ := List.exists_of_findSome?_eq_some h
  obtain ⟨rest, hseparator, hrule⟩ := Option.bind_eq_some_iff.mp hrule
  have hconsumes : separator.Consumes := .inr trivial
  have hlt : rest.length < s.2.length := hconsumes.length_lt_of_parse hseparator
  have hle : s'.2.length ≤ rest.length :=
    (((leaves_of_mem hmem).after _) _ _ _ hrule).length_le
  exact hle.trans_lt hlt

theorem accepts_of_option {s : AlarmT × List Char} (h : option table a text = some s) :
    accepts table a text = accepts table s.1 s.2 := by
  have hstep : allOptions table a text = allOptions table s.1 s.2 :=
    kleene_of_some (shrinking_option table) h
  rw [accepts, hstep, accepts]

theorem accepts_of_none (h : option table a text = none) :
    accepts table a text = if text.dropWhile isspace = [] then some a else none := by
  have hstop : allOptions table a text = (a, text) := kleene_of_none h
  rw [accepts, hstop]

theorem option_eq_none_of_ne {c : Char} (hc : text.dropWhile isspace = c :: rest) (hne : c ≠ ';') :
    option table a text = none :=
  List.findSome?_eq_none_iff.mpr fun _ _ => after_separator_of_ne hc hne

theorem option_eq_none_of_blank (h : text.dropWhile isspace = []) : option table a text = none :=
  List.findSome?_eq_none_iff.mpr fun _ _ => after_separator_of_blank h

theorem accepts_of_ne {c : Char} (hc : text.dropWhile isspace = c :: rest) (hne : c ≠ ';') :
    accepts table a text = none := by
  rw [accepts_of_none (option_eq_none_of_ne hc hne), hc]
  rfl

@[simp]
theorem accepts_nil (table : GroupTable) (a : AlarmT) : accepts table a [] = some a :=
  accepts_of_none (option_eq_none_of_blank rfl)

theorem accepts_blanks {spaces : List Char} (hspaces : ∀ c ∈ spaces, isspace c = true)
    (text : List Char) : accepts table a (spaces ++ text) = accepts table a text := by
  have hdrop : (spaces ++ text).dropWhile isspace = text.dropWhile isspace := by
    rw [List.dropWhile_append_of_pos hspaces]
  have hoption : option table a (spaces ++ text) = option table a text := by
    have hparse : separator.parse isspace (spaces ++ text) = separator.parse isspace text := by
      rw [separator, chP, parse_blanks_seq, parse_blanks_seq, hdrop]
      rfl
    simp only [option, after, hparse]
  cases h : option table a text with
  | none => rw [accepts_of_none h, accepts_of_none (hoption.trans h), hdrop]
  | some s => rw [accepts_of_option h, accepts_of_option (hoption.trans h)]

theorem accepts_key {keyed : KeyedRule} (h : keyed ∈ options table) (a : AlarmT)
    (text : List Char) :
    accepts table a (';' :: (keyed.1.toList ++ text))
      = (keyed.2 a text).bind fun s => accepts table s.1 s.2 := by
  cases hrule : keyed.2 a text with
  | none =>
      rw [accepts_of_none ((option_of_mem h a text).trans hrule)]
      rfl
  | some s => exact accepts_of_option ((option_of_mem h a text).trans hrule)

end DshLmc.AlarmParse
