import DshLmc.Library.Pattern

/-!
# The Nagios listener

The thread reads from the socket of the Nagios event radio and hands each read buffer to
`ProcessEvent`, which matches it as a whole against three regular expressions. A text is the list of
its bytes, as characters.
-/

namespace DshLmc

open Pattern

namespace Nagios

def fromText : List Char := [' ', 'f', 'r', 'o', 'm', ' ']
def arrowText : List Char := [' ', '-', '>', ' ']
def colonText : List Char := [':', ' ']

/-- ` from ([0-9]+) -> ([0-9]+): (.*)$`. The dot matches a newline, too. -/
def statesExpr : List (Piece Char) :=
  [.text fromText, .some Char.isDigit, .text arrowText, .some Char.isDigit, .text colonText,
    .anyLong]

/-- `(.*?) from ([0-9]+) -> ([0-9]+): (.*)$`. -/
def hostCheckExpr : List (Piece Char) := .anyShort :: statesExpr

/-- `(.*?);(.*?) from ([0-9]+) -> ([0-9]+): (.*)$`. -/
def serviceCheckExpr : List (Piece Char) := .anyShort :: .text [';'] :: hostCheckExpr

/-- `([0-9]+): (.*)$`. -/
def cmdErrorExpr : List (Piece Char) := [.some Char.isDigit, .text colonText, .anyLong]

end Nagios

/-- The data of a check. A host check has no service. -/
structure NagiosCheck where
  host : List Char
  service : Option (List Char)
  oldState : List Char
  newState : List Char
  data : List Char
deriving DecidableEq

/-- The value of the digits. `std::stoi` throws when no `int` has it. -/
def stoi (digits : List Char) : Option Nat :=
  let value := digits.foldl (fun value digit => 10 * value + (digit.toNat - '0'.toNat)) 0
  if value < 2147483648 then some value else none

def serviceCheckToStr (code : Nat) : String :=
  if code = 0 then "OK" else if code = 1 then "WARNING" else if code = 2 then "CRITICAL"
  else "UNKNOWN"

def hostCheckToStr (code : Nat) : String :=
  if code = 0 then "UP" else if code = 1 then "DOWN" else if code = 2 then "UNREACHABLE" else ""

def capitalize : List Char → List Char
  | [] => []
  | ch :: word => if ch.isAlpha then ch.toUpper :: word else ch :: capitalize word

def transformToCamelCase (s : List Char) : List Char :=
  let isSeparator (ch : Char) : Bool := ch ∈ ['-', '_', ',', ';']
  let isSpace (ch : Char) : Bool := ch ∈ [' ', '\t', '\n', '\x0b', '\x0c', '\r']
  let words := ((s.map fun ch => if isSeparator ch then ' ' else ch.toLower).splitOnP isSpace).filter
    (· ≠ [])
  words.head?.getD [] ++ (words.tail.map capitalize).flatten

/-- A value for a dynamic attribute, which is created when it is missing. -/
structure NagiosAttrUpdate where
  attr_name : List Char
  isFullInfoAttr : Bool
  values : List (List Char)
  emit_event : Bool
deriving DecidableEq

/-- The attributes that a check sets, for the code of its new state. -/
def NagiosCheck.updates (c : NagiosCheck) (stateCode : Nat) : List NagiosAttrUpdate :=
  let stateStringCode := match c.service with
    | some _ => (serviceCheckToStr stateCode).toList
    | none => (hostCheckToStr stateCode).toList
  let attr_name := match c.service with
    | some service => transformToCamelCase c.host ++ service
    | none => transformToCamelCase c.host ++ "HostStatus".toList
  let hasChangedState := c.newState != c.oldState
  [⟨attr_name, false, [stateStringCode], hasChangedState⟩,
    ⟨attr_name ++ "Info".toList, true, [stateStringCode, c.host, c.data], hasChangedState⟩]

/-- What comes of a message. `throws` is the exception of `std::stoi`, and `unknown` returns -1. -/
inductive ProcessEvent where
  | check (c : NagiosCheck) (updates : List NagiosAttrUpdate)
  | throws
  | error (errorCode : List Char) (errorMsg : List Char)
  | unknown
deriving DecidableEq

/-- The rest of a branch of `ProcessEvent`. -/
@[grind =]
def NagiosCheck.process (c : NagiosCheck) : ProcessEvent :=
  match stoi c.newState with
  | some stateCode => .check c (c.updates stateCode)
  | none => .throws

/-- The check that one of the first two expressions reads. -/
@[grind =]
def readCheck (msg : List Char) : Option NagiosCheck :=
  match captures Nagios.serviceCheckExpr msg with
  | some [host, service, oldState, newState, data] =>
      some ⟨host, some service, oldState, newState, data⟩
  | _ =>
      match captures Nagios.hostCheckExpr msg with
      | some [host, oldState, newState, data] => some ⟨host, none, oldState, newState, data⟩
      | _ => none

@[grind =]
def processEvent (msg : List Char) : ProcessEvent :=
  match readCheck msg with
  | some c => c.process
  | none =>
      match captures Nagios.cmdErrorExpr msg with
      | some [errorCode, errorMsg] => .error errorCode errorMsg
      | _ => .unknown

/-- The read loop, for the chunks that `Read` returns: the checks that are processed. An exception
ends the thread. -/
@[grind =]
def nagiosChecks : List (List Char) → List NagiosCheck
  | [] => []
  | msg :: reads =>
      match processEvent msg with
      | .check c _ => c :: nagiosChecks reads
      | .throws => []
      | _ => nagiosChecks reads

end DshLmc
