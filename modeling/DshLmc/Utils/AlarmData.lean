import DshLmc.Library.Peg

/-!
# Alarm configuration

An alarm is configured with a formula over labels, the values of the labels and a row of other fields.
`SerializeToTangoFormat` puts the values into the formula and writes the fields into one line for the
alarm handler, with `;` between them.
-/

namespace DshLmc

section Replace

variable {α : Type*} [DecidableEq α]

/-- `str.find(oldstr)`. -/
def find (oldstr : List α) : List α → Option Nat
  | [] => if oldstr = [] then some 0 else none
  | c :: str => if oldstr <+: c :: str then some 0 else (find oldstr str).map (· + 1)

/-- The text up to `pos`, the text from there, and how often something was replaced. -/
structure Replacing (α : Type*) where
  done : List α
  str : List α
  nfound : Nat

def Replacing.next (oldstr newstr : List α) (r : Replacing α) : Option (Replacing α) :=
  (find oldstr r.str).map fun pos =>
    ⟨r.done ++ r.str.take pos ++ newstr, r.str.drop (pos + oldstr.length), r.nfound + 1⟩

/-- `CodeUtils::StringFindAndReplace`: what it returns, and the text. -/
def stringFindAndReplace (str oldstr newstr : List α) : Int × List α :=
  let r := kleene (fun r => r.str.length) (Replacing.next oldstr newstr) ⟨[], str, 0⟩
  (if r.nfound = 0 then -1 else 0, r.done ++ r.str)

end Replace

structure AlarmData where
  m_name : List Char
  m_formula : List Char
  /-- Labels and values, in the order of the labels. -/
  m_symbols : List (List Char × List Char)
  m_level : List Char
  m_groups : List (List Char)
  m_message : List Char
  m_on_delay : Int32 := 0
  m_off_delay : Int32 := 0
  m_silent_time : Int32 := -1
  m_on_command : List Char := []
  m_off_command : List Char := []
  m_enabled : Bool := true
  m_is_polled : Bool := false
  m_poll_period : Int64 := 0

namespace AlarmData

def isValid (d : AlarmData) : Bool :=
  if d.m_name.isEmpty then false
  else if d.m_formula.isEmpty then false
  else if d.m_symbols.isEmpty then false
  else if d.m_level.isEmpty then false
  else if d.m_message.isEmpty then false
  else if d.m_is_polled && d.m_poll_period < 0 then false
  else true

/-- The loop of `ExpandFormula`. It replaces in the formula that the alarm keeps. -/
def expandSymbols : List (List Char × List Char) → List Char → Int × List Char
  | [], m_formula => (0, m_formula)
  | (label, value) :: symbols, m_formula =>
      let replaced := stringFindAndReplace m_formula ('$' :: label) value
      if replaced.1 < 0 then (-1, replaced.2) else expandSymbols symbols replaced.2

/-- What it returns, the formula it hands out, which is the one before the labels were replaced, and
the alarm. -/
def expandFormula (d : AlarmData) : Int × List Char × AlarmData :=
  if d.m_symbols.isEmpty then (-1, d.m_formula, d)
  else
    let expanded := expandSymbols d.m_symbols d.m_formula
    (expanded.1, d.m_formula, { d with m_formula := expanded.2 })

def decimalText (i : Int32) : List Char := (toString i.toInt).toList

/-- `ss << key << value << ";"`. -/
def put (key : String) (value : List Char) : List Char := key.toList ++ (value ++ [';'])

def groupText : List (List Char) → List Char
  | [] => "none".toList
  | [group] => group
  | group :: groups => group ++ " | ".toList ++ groupText groups

def commandText (key : String) (command : List Char) : List Char :=
  if command.isEmpty then [] else put key command

def fields (d : AlarmData) : List Char :=
  put "tag=" d.m_name
    ++ (put "formula=" d.m_formula
    ++ (put "on_delay=" (decimalText d.m_on_delay)
    ++ (put "off_delay=" (decimalText d.m_off_delay)
    ++ (put "priority=" d.m_level
    ++ (put "shlvd_time=" (decimalText d.m_silent_time)
    ++ (put "group=" (groupText d.m_groups)
    ++ (put "message=" d.m_message
    ++ (commandText "on_command=" d.m_on_command
    ++ (commandText "off_command=" d.m_off_command
    ++ ("enabled=".toList ++ [if d.m_enabled then '1' else '0']))))))))))

/-- What it returns, the text it writes into `data`, and the alarm. -/
def serializeToTangoFormat (d : AlarmData) (data : List Char) : Int × List Char × AlarmData :=
  if d.isValid then
    let (code, _, d) := d.expandFormula
    if code < 0 then (-1, [], d) else (0, d.fields, d)
  else (-1, data, d)

end AlarmData

end DshLmc
