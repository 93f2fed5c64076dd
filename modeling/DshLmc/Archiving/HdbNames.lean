import DshLmc.Utils.Signals

/-!
# The names of the archiver

A signal is kept under a name with the host of its database. `HdbDevice` asks the name server for the
domain of a host that has none. It remembers the answer with the port that the host had then, and goes
by what it remembers whatever the port is. Names are compared without the domain, and a name with a
dot and no port makes the comparison throw.
-/

namespace DshLmc

open Search TangoUtils

/-- What the device throws: `Tango::DevFailed`, or what a string throws of a position that it does not
have, or of a text that is NULL. To look into a signal that is NULL has no defined behaviour. -/
inductive HdbError where
  | devFailed (desc : List Char)
  | out_of_range
  | logic_error
  | null
deriving DecidableEq

/-- The properties of the device, the host of its database, and the name server, whose results for a
host have a canonical name or NULL. -/
structure HdbConfig where
  contextsList : List (List Char)
  defaultStrategy : List Char
  TANGO_HOST : Option (List Char)
  getaddrinfo : List Char → Option (List (Option (List Char)))

/-- `domain_map` -/
abbrev DomainMap := List (List Char × List Char)

def DomainMap.insert (domain_map : DomainMap) (th with_domain : List Char) : DomainMap :=
  if (domain_map.lookup th).isSome then domain_map else domain_map ++ [(th, with_domain)]

abbrev NamesM (α : Type) := ExceptT HdbError (StateM DomainMap) α

/-- The position where `:` is not found is the largest one, so no dot is behind it, and `substr` throws
there. -/
def remove_domain (str : List Char) : Except HdbError (List Char) :=
  match findText ['.'] str with
  | none => .ok str
  | some end1 =>
      match findFrom [':'] str (if (findText tangoPrefix str).isSome then 8 else 0) with
      | none => .error .out_of_range
      | some end2 => if end2 < end1 then .ok str else .ok (str.take end1 ++ str.drop end2)

def compare_without_domain (str1 str2 : List Char) : Except HdbError Bool := do
  let str1_nd ← remove_domain str1
  let str2_nd ← remove_domain str2
  return str1_nd.map Char.toLower == str2_nd.map Char.toLower

namespace HdbConfig

variable (c : HdbConfig)

def get_only_signal_name (str : List Char) : List Char :=
  match findText tangoPrefix str with
  | none => str
  | some start =>
      match findFrom ['/'] str (start + 8) with
      | none => str
      | some slash => str.drop (slash + 1)

def get_only_tango_host (str : List Char) : List Char :=
  match findText tangoPrefix str with
  | none => c.TANGO_HOST.getD "unknown".toList
  | some start => (str.drop (start + 8)).takeWhile (· ≠ '/')

/-- The loop over the results. The first of them stays in the map, the last one is the name. -/
def addResults (th : List Char) (port : Option (List Char)) :
    List (Option (List Char)) → List Char → NamesM (List Char)
  | [], with_domain => pure with_domain
  | none :: _, _ => throw .logic_error
  | some canonname :: rp, _ =>
      match port with
      | none => throw .out_of_range
      | some port => do
          modify fun domain_map => DomainMap.insert domain_map th (canonname ++ port)
          addResults th (some port) rp (canonname ++ port)

/-- A host without a domain. The map knows hosts without their ports, by names with a port. -/
def add_domain (str : List Char) : NamesM (List Char) :=
  if '.' ∈ str then pure str
  else do
    let start := if (findText tangoPrefix str).isSome then 8 else 0
    let end2 := findFrom [':'] str start
    let th := (str.drop start).take (end2.getD str.length)
    let domain_map ← get
    match domain_map.lookup th with
    | some with_domain => pure with_domain
    | none =>
        match c.getaddrinfo th with
        | none => pure str
        | some result => addResults th (end2.map (str.drop ·)) result str

def fix_tango_host (attr : List Char) : NamesM (List Char) :=
  let attr := attr.map Char.toLower
  match findText tangoPrefix attr, c.TANGO_HOST with
  | none, none => pure attr
  | none, some s => do
      let s ← c.add_domain s
      return tangoPrefix ++ s ++ '/' :: attr
  | some _, _ => do
      let facility ← c.add_domain (c.get_only_tango_host attr)
      return tangoPrefix ++ facility ++ '/' :: get_only_signal_name attr

end HdbConfig

end DshLmc
