import DshLmc.Archiving.HdbDevice
import DshLmc.Library.Preserves

/-!
# The commands of the archiver

`HdbEventSubscriber` starts, stops and pauses signals one by one, and by the context that is set: a
signal is archived in the contexts of its strategy. Every command looks up the names that it is given.
-/

namespace DshLmc

/-- The device, with the context that is set and the names of hosts that it remembers. -/
structure HdbEventSubscriber where
  shared : SharedData
  context_set : List Char
  domain_map : DomainMap

/-- A command, which may throw after it has changed something. -/
abbrev HdbM (α : Type) := ExceptT HdbError (StateM HdbEventSubscriber) α

namespace HdbEventSubscriber

def shares (r : SharedData.Call) : HdbM Unit :=
  attempt fun hdb => (hdb.shared.call r).map fun shared => { hdb with shared := shared }

def asks {α : Type} (f : SharedData → Except HdbError α) : HdbM α := inquire fun hdb => f hdb.shared

variable (c : HdbConfig)

def fix_tango_host (signame : List Char) : HdbM (List Char) := fun hdb =>
  let fixed := (c.fix_tango_host signame).run.run hdb.domain_map
  (fixed.1, { hdb with domain_map := fixed.2 })

def attribute_start (signame : List Char) : HdbM Unit := do
  let signame ← fix_tango_host c signame
  let is_paused ← asks (SharedData.is_paused signame)
  let is_stopped ← asks (SharedData.is_stopped signame)
  if is_paused || is_stopped then shares (.start signame) else pure ()

def attribute_stop (signame : List Char) : HdbM Unit := do
  let signame ← fix_tango_host c signame
  let is_running ← asks (SharedData.is_running signame)
  let is_paused ← asks (SharedData.is_paused signame)
  if is_running || is_paused then shares (.stop signame) else pure ()

def attribute_pause (signame : List Char) : HdbM Unit := do
  let signame ← fix_tango_host c signame
  let is_running ← asks (SharedData.is_running signame)
  if is_running then shares (.pause signame)
  else throw (.devFailed ("Signal ".toList ++ signame ++ " NOT started".toList))

def attribute_remove (signame : List Char) : HdbM Unit := do
  let signame ← fix_tango_host c signame
  let is_running ← asks (SharedData.is_running signame)
  let is_paused ← asks (SharedData.is_paused signame)
  (if is_running || is_paused then shares (.stop signame) else pure ())
  let signame ← fix_tango_host c signame
  shares (.remove signame)

/-- Starts a signal of the context that is set, and stops any other. -/
def archive (signame : List Char) : HdbM Unit := do
  let hdb ← get
  let is_current_context ← asks (SharedData.is_current_context signame hdb.context_set)
  if is_current_context then attribute_start c signame else attribute_stop c signame

/-- The contexts of a strategy that are defined, or else the default. -/
def appliedStrategy (requested : List Char) : List (List Char) :=
  let contexts := (string_explode '|' requested).filterMap c.context
  if contexts = [] then [c.defaultStrategy] else contexts

def badStrategy (requested : List Char) : Bool :=
  (string_explode '|' requested).any fun context => (c.context context).isNone

/-- The end of `attribute_add` and `set_attribute_strategy`. -/
def reportStrategy (requested : List Char) : HdbM Unit :=
  if badStrategy c requested then
    throw (.devFailed ("Requested strategy: ".toList ++ requested ++ "\nApplied strategy: ".toList
      ++ ['|'].intercalate (appliedStrategy c requested)))
  else pure ()

def attribute_add (signame requested : List Char) (ttl : UInt32) : HdbM Unit := do
  let signame ← fix_tango_host c signame
  shares (.add signame (appliedStrategy c requested) ttl HDB_UPDATE_PROP)
  let signame ← fix_tango_host c signame
  shares (.updatettl signame ttl)
  archive c signame
  reportStrategy c requested

def set_attribute_strategy (signame requested : List Char) : HdbM Unit := do
  let signame ← fix_tango_host c signame
  shares (.update signame (appliedStrategy c requested))
  archive c signame
  reportStrategy c requested

def set_attribute_ttl (signame : List Char) (ttl : UInt32) : HdbM Unit := do
  let signame ← fix_tango_host c signame
  shares (.updatettl signame ttl)

/-- The commands that only read: `attribute_status`, `get_attribute_strategy`, `get_attribute_ttl`. -/
def read (signame : List Char) : HdbM Unit := do
  let signame ← fix_tango_host c signame
  let _ ← asks (SharedData.ask signame fun _ => true)

def get_sig_list : HdbM (List (List Char)) := do
  let hdb ← get
  return hdb.shared.signals.map HdbSignal.name

def write_Context (argin : List Char) : HdbM Unit :=
  match c.context argin with
  | none => throw (.devFailed ("Context ".toList ++ argin ++ " NOT DEFINED".toList))
  | some _ => do
      modify fun hdb => { hdb with context_set := upperText argin }
      let att_list_tmp ← get_sig_list
      att_list_tmp.forM fun signame => archive c signame

def start : HdbM Unit := do
  let hdb ← get
  let att_list_tmp ← get_sig_list
  att_list_tmp.forM fun signame => do
    let is_current_context ← asks (SharedData.is_current_context signame hdb.context_set)
    if is_current_context then attribute_start c signame else pure ()

def stop : HdbM Unit := do
  let att_list_tmp ← get_sig_list
  att_list_tmp.forM fun signame => attribute_stop c signame

/-- `pause` goes on when one signal throws `DevFailed`. -/
def pause : HdbM Unit := do
  let att_list_tmp ← get_sig_list
  att_list_tmp.forM fun signame =>
    tryCatch (do
      let is_running ← asks (SharedData.is_running signame)
      if is_running then attribute_pause c signame else pure ()) fun
    | .devFailed _ => pure ()
    | e => throw e

inductive Command where
  | attribute_add (signame requested : List Char) (ttl : UInt32)
  | attribute_remove (signame : List Char)
  | attribute_start (signame : List Char)
  | attribute_stop (signame : List Char)
  | attribute_pause (signame : List Char)
  | set_attribute_strategy (signame requested : List Char)
  | set_attribute_ttl (signame : List Char) (ttl : UInt32)
  | read (signame : List Char)
  | write_Context (argin : List Char)
  | start
  | stop
  | pause

def command : Command → HdbM Unit
  | .attribute_add signame requested ttl => attribute_add c signame requested ttl
  | .attribute_remove signame => attribute_remove c signame
  | .attribute_start signame => attribute_start c signame
  | .attribute_stop signame => attribute_stop c signame
  | .attribute_pause signame => attribute_pause c signame
  | .set_attribute_strategy signame requested => set_attribute_strategy c signame requested
  | .set_attribute_ttl signame ttl => set_attribute_ttl c signame ttl
  | .read signame => read c signame
  | .write_Context argin => write_Context c argin
  | .start => start c
  | .stop => stop c
  | .pause => pause c

/-- What a command leaves, whether it returns or throws. -/
def step (hdb : HdbEventSubscriber) (cmd : Command) : HdbEventSubscriber :=
  ((command c cmd).run.run hdb).2

/-- The device with the signals that its property lists. It does not start without a default among its
contexts, nor when the names of the property make it throw. -/
def init_device (tmplist : List (List Char)) : Option HdbEventSubscriber :=
  if (c.context c.defaultStrategy).isNone then none
  else
    match (c.get_hdb_signal_list tmplist).run.run [] with
    | (.error _, _) => none
    | (.ok list, domain_map) =>
        (c.build_signal_vector list ⟨⟨0, 0, 0, 0⟩, HDB_NOTHING, []⟩).toOption.map fun shared =>
          { shared := shared, context_set := upperText c.defaultStrategy, domain_map := domain_map }

end HdbEventSubscriber

end DshLmc
