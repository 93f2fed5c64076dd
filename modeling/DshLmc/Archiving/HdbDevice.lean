import DshLmc.Archiving.SharedData
import DshLmc.Library.Numerals

/-!
# The configuration of the archiver

`HdbDevice` reads the signals back from the lines that were saved for them. A signal whose line cannot
be read whole is still loaded, with what is missing taken from the defaults.
-/

namespace DshLmc

open Search

def CONTEXT_KEY : List Char := "strategy".toList

def TTL_KEY : List Char := "ttl".toList

def DEFAULT_TTL : UInt32 := 0

def string_explode (separator : Char) (str : List Char) : List (List Char) :=
  (str.splitOn separator).filter (· ≠ [])

namespace HdbConfig

variable (c : HdbConfig)

/-- The contexts by their names in capital letters. Of two lines for one context the first counts. -/
def contexts_map_upper : List (List Char × List Char) :=
  let contexts := c.contextsList.filterMap fun line =>
    match string_explode ':' line with
    | [name, _] => some (upperText name, name)
    | _ => none
  if (contexts.lookup ALWAYS_CONTEXT).isNone then contexts ++ [(ALWAYS_CONTEXT, ALWAYS_CONTEXT)]
  else contexts

def context (name : List Char) : Option (List Char) := c.contexts_map_upper.lookup (upperText name)

def strategyConf : List Char := CONTEXT_KEY ++ '=' :: upperText c.defaultStrategy

def ttlConf : List Char := TTL_KEY ++ '=' :: Nat.toDigits 10 DEFAULT_TTL.toNat

/-- What stands behind `tmplist_name`, with the defaults for what is missing. -/
def completedConf (conf : List Char) : List Char :=
  let strat := (findText (CONTEXT_KEY ++ ['=']) conf).isSome
  let ttl := (findText (TTL_KEY ++ ['=']) conf).isSome
  let closed := if conf.getLast? ≠ some ';' then conf ++ [';'] else conf
  -- here no semicolon stands between the two
  if conf = [] || (!strat && !ttl) then c.strategyConf ++ ttlConf
  else if strat && !ttl then closed ++ ttlConf
  else if !strat && ttl then closed ++ c.strategyConf
  else conf

/-- The name in a line, and the configuration behind it. -/
def lineParts (line : List Char) : List Char × List Char :=
  match findText [';'] line with
  | some (n + 1) => (line.take (n + 1), c.completedConf (line.drop (n + 2)))
  | _ => (line, c.strategyConf ++ ';' :: ttlConf)

/-- A line of the property that is neither empty nor a comment. -/
def isEntry (line : List Char) : Bool := line ≠ [] && line.head? ≠ some '#'

def readLine (line : List Char) : NamesM (List Char) := do
  let tmplist_name ← c.fix_tango_host (c.lineParts line).1
  return tmplist_name ++ ';' :: (c.lineParts line).2

def readLines : List (List Char) → NamesM (List (List Char))
  | [] => pure []
  | line :: lines => do
      let entry ← c.readLine line
      let list ← readLines lines
      return entry :: list

def get_hdb_signal_list (tmplist : List (List Char)) : NamesM (List (List Char)) :=
  c.readLines (tmplist.filter isEntry)

/-- A part of a line with its key. -/
def keyValue (part : List Char) : Option (List Char × List Char) :=
  match findText ['='] part with
  | some (n + 1) => some (part.take (n + 1), part.drop (n + 2))
  | _ => none

/-- `>>` into an unsigned number of 32 bits. -/
def readULong (text : List Char) : UInt32 :=
  let number := readSign (text.dropWhile isBlank)
  let value := digitsValue (number.2.takeWhile Char.isDigit)
  if 2 ^ 32 ≤ value then 0xffffffff else signed number.1 (UInt32.ofNat value)

/-- The contexts that a line names. -/
def lineContexts (db_conf : List (List Char × List Char)) : List (List Char) :=
  match db_conf.lookup CONTEXT_KEY with
  | some s_contexts => string_explode '|' s_contexts
  | none =>
      let key := CONTEXT_KEY ++ ['=']
      match findText key (upperText c.defaultStrategy) with
      | some pos => string_explode '|' ((upperText c.defaultStrategy).drop (pos + key.length))
      | none => []

/-- A line of the list as `add` takes it. -/
def readSignal (line : List Char) : Option SharedData.Call :=
  match string_explode ';' line with
  | [] => none
  | name :: v_conf =>
      let db_conf := v_conf.filterMap keyValue
      let contexts := if v_conf = [] then [] else c.lineContexts db_conf
      some (.add name (contexts.filterMap c.context)
        ((db_conf.lookup TTL_KEY).elim DEFAULT_TTL readULong) HDB_NOTHING)

/-- What cannot be added is left out, unless something else is thrown. -/
def build_signal_vector : List (List Char) → SharedData → Except HdbError SharedData
  | [], d => .ok d
  | line :: list, d =>
      match c.readSignal line with
      | none => .error .null
      | some r =>
          match d.call r with
          | .ok d => build_signal_vector list d
          | .error (.devFailed _) => build_signal_vector list d
          | .error e => .error e

end HdbConfig

end DshLmc
