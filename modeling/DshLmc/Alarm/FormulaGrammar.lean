import DshLmc.Library.Peg

/-!
# The grammar of alarm formulas

The alarm handler reads a formula with `formula_grammar`. A formula is an expression over attributes of
devices, numbers, texts and the names of states, with the operators at the levels that C gives them.
The parsers it is built from skip blanks before they match, and a directive turns that off inside the
name of an attribute or a quoted text.
-/

namespace DshLmc

open Peg

def isspace (c : Char) : Bool := c == ' ' || ('\t' ≤ c && c ≤ '\r')

def chP (c : Char) : Peg Char := blanks >>> char fun c' => c' == c

def strP (text : String) : Peg Char := blanks >>> exact text.toList

/-- A row of digits whose number is below a bound. A longer number is no match. -/
def digits (isDigit : Char → Bool) (number : List Char → Nat) (bound : Nat) : Peg Char :=
  run isDigit fun word => !word.isEmpty && number word < bound

def decimal (word : List Char) : Nat := Nat.ofDigitChars 10 word 0

def isHexDigit (c : Char) : Bool := c.isDigit || ('a' ≤ c && c ≤ 'f') || ('A' ≤ c && c ≤ 'F')

def hexadecimal (word : List Char) : Nat :=
  word.foldl (fun n c => 16 * n + if c.isDigit then c.toNat - '0'.toNat else c.toLower.toNat - 87) 0

def uintP : Peg Char := blanks >>> digits Char.isDigit decimal 4294967296

def hexP : Peg Char := blanks >>> digits isHexDigit hexadecimal 4294967296

/-- A real number. A number with no digit before its dot has some behind it, and where an exponent
starts there has to be one. The largest exponents are not left out. -/
def realP : Peg Char :=
  let sign := char fun c => c == '+' || c == '-'
  let number := plus (char Char.isDigit)
  let dot := char fun c => c == '.'
  let isExp := fun c => c == 'e' || c == 'E'
  blanks >>> opt sign >>> (number >>> opt (dot >>> opt number) ||| dot >>> number)
    >>> (char isExp >>> opt sign >>> number ||| .unless isExp)

namespace FormulaGrammar

def isSymbol (c : Char) : Bool := c.isAlphanum || c == '.' || c == '_' || c == '-' || c == '+'

def isSymbolAttr (c : Char) : Bool := c.isAlphanum || c == '_'

def symbol : Peg Char := char isSymbol

def symbolAttr : Peg Char := char isSymbolAttr

/-- The name of an attribute, with the address of its database or not. -/
def name : Peg Char :=
  let slash := exact "/".toList
  blanks >>> opt (exact "tango://".toList >>> plus symbol >>> exact ":".toList
      >>> digits Char.isDigit decimal 4294967296 >>> slash)
    >>> plus symbol >>> slash >>> plus symbol >>> slash >>> plus symbol >>> slash >>> plus symbolAttr

def index : Peg Char := chP '[' >>> uintP >>> chP ']'

def property : Peg Char := strP ".quality" ||| strP ".alarm" ||| strP ".normal"

def event : Peg Char := name >>> opt (index ||| property)

def tangoStates : List String :=
  ["ON", "OFF", "CLOSE", "OPEN", "INSERT", "EXTRACT", "MOVING", "STANDBY", "FAULT", "INIT", "RUNNING",
    "ALARM", "DISABLE", "UNKNOWN"]

def attrQuality : List String :=
  ["ATTR_VALID", "ATTR_INVALID", "ATTR_ALARM", "ATTR_CHANGING", "ATTR_WARNING"]

def alarmEnumStates : List String :=
  ["NORM", "UNACK", "ACKED", "RTNUN", "SHLVD", "DSUPR", "OOSRV", "ERROR"]

/-- A name of a table. No name here starts another, so the first that is there is the longest. -/
def symbolOf (table : List String) : Peg Char := blanks >>> oneOf (table.map String.toList)

def valR : Peg Char := realP

def valH : Peg Char := strP "0x" >>> hexP

def valSt : Peg Char := symbolOf tangoStates

def valQuality : Peg Char := symbolOf attrQuality

def valAlarmEnumSt : Peg Char := symbolOf alarmEnumStates

def valString : Peg Char := blanks >>> quoted '\''

/-- An expression in parentheses is the whole grammar again. -/
def nonEmptyExpression : Peg Char := again

def exprAtom : Peg Char :=
  event ||| valH ||| valR ||| valSt ||| valQuality ||| valAlarmEnumSt ||| valString
    ||| chP '(' >>> nonEmptyExpression >>> chP ')'

def functionOf (name : String) : Peg Char := strP name >>> chP '(' >>> again >>> chP ')'

def function : Peg Char :=
  functionOf "abs" ||| functionOf "cos" ||| functionOf "sin" ||| functionOf "quality"

def functionDualOf (name : String) : Peg Char :=
  strP name >>> chP '(' >>> again >>> chP ',' >>> again >>> chP ')'

def functionDual : Peg Char := functionDualOf "max" ||| functionDualOf "min" ||| functionDualOf "pow"

def unaryExpr : Peg Char :=
  exprAtom ||| function ||| functionDual
    ||| chP '+' >>> exprAtom ||| chP '-' >>> exprAtom ||| chP '!' >>> exprAtom

def multExpr : Peg Char := unaryExpr >>> star (chP '*' >>> unaryExpr ||| chP '/' >>> unaryExpr)

def addExpr : Peg Char := multExpr >>> star (chP '+' >>> multExpr ||| chP '-' >>> multExpr)

def shiftExpr : Peg Char := addExpr >>> star (strP "<<" >>> addExpr ||| strP ">>" >>> addExpr)

/-- To the right of a comparison there is no shift. -/
def compareExpr : Peg Char :=
  shiftExpr >>> star (strP "<=" >>> addExpr ||| strP ">=" >>> addExpr
    ||| chP '<' >>> addExpr ||| chP '>' >>> addExpr)

def equalityExpr : Peg Char :=
  compareExpr >>> star (strP "==" >>> compareExpr ||| strP "!=" >>> compareExpr)

def bitwiseExpr : Peg Char :=
  equalityExpr >>> star (chP '&' >>> equalityExpr ||| chP '|' >>> equalityExpr
    ||| chP '^' >>> equalityExpr)

def logicalExpr : Peg Char :=
  bitwiseExpr >>> star (strP "&&" >>> bitwiseExpr ||| strP "||" >>> bitwiseExpr)

def condExpr : Peg Char := logicalExpr >>> star (chP '?' >>> again >>> chP ':' >>> again)

end FormulaGrammar

end DshLmc
