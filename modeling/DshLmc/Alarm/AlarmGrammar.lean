import DshLmc.Alarm.FormulaGrammar
import DshLmc.Library.KeyedList

/-!
# The grammar of alarms

The alarm handler reads the line of an alarm with `alarm_parse`: the name, the formula, and options in
any order, each behind a `;`. What a parser matched is assigned to a field of the alarm, without the
blanks before it. The groups of an alarm are bits, given by a table of the handler.
-/

namespace DshLmc

open Peg

structure AlarmT where
  name : List Char
  formula : List Char
  on_delay : Nat
  off_delay : Nat
  lev : List Char
  silent_time : Int
  grp : UInt32
  msg : List Char
  cmd_name_a : List Char
  cmd_name_n : List Char
  enabled : Bool
deriving DecidableEq

/-- `grp_str`: the bits of a group. -/
abbrev GroupTable := List (List Char × UInt32)

def grNone : UInt32 := 0

def grAll : UInt32 := 0xffffffff

def grNoneName : List Char := "gr_none".toList

def grAllName : List Char := "gr_all".toList

namespace GroupTable

/-- `init_static_map`. The first group of the property has no bit, `gr_all` has all of them. -/
def initStaticMap (group_names : List (List Char)) : GroupTable :=
  let named : GroupTable :=
    match group_names with
    | [] => [(grNoneName, grNone)]
    | first :: rest =>
        ((first, grNone) :: (rest.filter (· ≠ grAllName)).zipIdx.map fun group =>
          (group.1, (1 : UInt32) <<< group.2.toUInt32)).filter (·.1 ≠ grAllName)
  (named ++ [(grAllName, grAll)]).foldl (addNew Prod.fst) []

def longest : GroupTable → List Char → Option (List Char × UInt32)
  | [], _ => none
  | group :: table, text =>
      if group.1 ≠ [] ∧ group.1 <+: text then
        match longest table text with
        | none => some group
        | some other => if group.1.length < other.1.length then some other else some group
      else longest table text

def symGrp (table : GroupTable) (text : List Char) : Option (UInt32 × List Char) :=
  let start := text.dropWhile isspace
  (table.longest start).map fun group => (group.2, start.drop group.1.length)

end GroupTable

namespace AlarmParse

/-- Reads a text and assigns to fields of the alarm. -/
abbrev Rule := AlarmT → List Char → Option (AlarmT × List Char)

def assign (p : Peg Char) (field : AlarmT → List Char → AlarmT) : Rule := fun a text =>
  (p.capture isspace text).map fun matched => (field a matched.1, matched.2)

def orEpsilon (rule : Rule) : Rule := fun a text => (rule a text).or (some (a, text))

def after (p : Peg Char) (rule : Rule) : Rule := fun a text =>
  (p.parse isspace text).bind (rule a)

def isSymbolAttrName (c : Char) : Bool := c.isAlphanum || c == '.' || c == '_' || c == '-'

def symbol : Peg Char := char FormulaGrammar.isSymbol

def symbolAttrName : Peg Char := char isSymbolAttrName

/-- The name of a command. The blanks skipped are those before a slash. -/
def name : Peg Char :=
  plus symbol >>> chP '/' >>> plus symbol >>> chP '/' >>> plus symbol >>> chP '/'
    >>> plus symbolAttrName

def nameAlm : Peg Char := plus symbolAttrName

def intP : Peg Char :=
  blanks >>> (exact ['-'] >>> digits Char.isDigit decimal 2147483649
    ||| opt (exact ['+']) >>> digits Char.isDigit decimal 2147483648)

def integer : List Char → Int
  | '-' :: word => -decimal word
  | '+' :: word => decimal word
  | word => decimal word

def binP : Peg Char :=
  blanks >>> digits (fun c => c == '0' || c == '1') (fun word => Nat.ofDigitChars 2 word 0) 4294967296

def separator : Peg Char := chP ';'

def formula (text : List Char) : Option (List Char) :=
  (FormulaGrammar.condExpr.parse isspace text).or (some text)

/-- An option: its key, and what is read behind the key. -/
abbrev KeyedRule := String × Rule

def level : KeyedRule :=
  ("priority=",
    assign (strP "fault" ||| strP "warning" ||| strP "log") fun a word => { a with lev := word })

def symGrp (table : GroupTable) : Rule := fun a text =>
  (table.symGrp text).map fun group => ({ a with grp := a.grp ||| group.1 }, group.2)

def groups (table : GroupTable) : Rule := fun a text =>
  (symGrp table a text).map
    (kleene (fun s => s.2.length) fun s => after (chP '|') (symGrp table) s.1 s.2)

def group (table : GroupTable) : KeyedRule := ("group=", groups table)

def msg : KeyedRule :=
  ("message=",
    assign (plus (blanks >>> char (· ≠ ';'))) fun a word => { a with msg := word })

def onDelay : KeyedRule :=
  ("on_delay=", orEpsilon (assign uintP fun a word => { a with on_delay := decimal word }))

def offDelay : KeyedRule :=
  ("off_delay=", orEpsilon (assign uintP fun a word => { a with off_delay := decimal word }))

def silentTime : KeyedRule :=
  ("shlvd_time=", orEpsilon (assign intP fun a word => { a with silent_time := integer word }))

def onCommand : KeyedRule :=
  ("on_command=", orEpsilon (assign name fun a word => { a with cmd_name_a := word }))

def offCommand : KeyedRule :=
  ("off_command=", orEpsilon (assign name fun a word => { a with cmd_name_n := word }))

def enabled : KeyedRule :=
  ("enabled=", assign binP fun a word => { a with enabled := Nat.ofDigitChars 2 word 0 ≠ 0 })

def options (table : GroupTable) : List KeyedRule :=
  [onDelay, offDelay, level, silentTime, group table, msg, onCommand, offCommand, enabled]

/-- The first of the options that matches behind a separator. -/
def option (table : GroupTable) : Rule := fun a text =>
  (options table).findSome? fun rule => after separator (after (strP rule.1) rule.2) a text

def allOptions (table : GroupTable) (a : AlarmT) (text : List Char) : AlarmT × List Char :=
  kleene (fun s => s.2.length) (fun s => option table s.1 s.2) (a, text)

/-- The formula, with the blanks before it left out. -/
def formulaOption : Rule := fun a text =>
  let start := text.dropWhile isspace
  (formula start).map fun rest =>
    ({ a with formula := start.take (start.length - rest.length) }, rest)

def expression (table : GroupTable) : Rule :=
  after (strP "tag=") fun a text =>
    (assign nameAlm (fun a word => { a with name := word }) a text).bind fun named =>
    (after separator (after (strP "formula=") formulaOption) named.1 named.2).bind fun s =>
    some (allOptions table s.1 s.2)

end AlarmParse

/-- What `load_alarm` sets before it parses. -/
def AlarmT.cleared : AlarmT := ⟨[], [], 0, 0, [], -1, 0, [], [], [], true⟩

/-- `ast_parse` with `full` true. Blanks at the end do not matter. -/
def AlarmParse.full (table : GroupTable) (alarm_string : List Char) : Option AlarmT :=
  match AlarmParse.expression table .cleared alarm_string with
  | some (a, rest) => if rest.dropWhile isspace = [] then some a else none
  | none => none

end DshLmc
