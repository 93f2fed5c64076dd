import DshLmc.Alarm.AlarmTable
import DshLmc.Library.KeyedList
import DshLmc.Utils.Signals

/-!
# The event table

The alarm handler has a table of alarms and a table of events. An event lists the alarms that are
evaluated when it comes, and an alarm has the set of its events. `add_event` links the two when an
alarm is loaded, and `remove_alarm` cuts the links again. An event without an alarm leaves the table.
-/

namespace DshLmc

open TableAlarm

/-- `event`, without its value and its subscription. -/
structure AlarmEvent extends SignalFlags where
  name : List Char
  m_alarm : List (List Char)

namespace AlarmEvent

def added (name : List Char) : AlarmEvent := ⟨⟨false, false, true⟩, name, []⟩

def push_alarm (n : List Char) (e : AlarmEvent) : AlarmEvent :=
  { e with m_alarm := e.m_alarm ++ [n] }

/-- `pop_alarm`, which takes out the first entry of the name. -/
def pop_alarm (n : List Char) (e : AlarmEvent) : AlarmEvent :=
  { e with m_alarm := e.m_alarm.erase n }

def start (e : AlarmEvent) : AlarmEvent := { e with toSignalFlags := e.toSignalFlags.start }

def stop (e : AlarmEvent) : AlarmEvent := { e with toSignalFlags := e.toSignalFlags.stop }

end AlarmEvent

/-- `event_table`, with the counters of the device. -/
structure EventTable extends SignalCounters where
  v_event : List AlarmEvent

namespace EventTable

def find (t : EventTable) (s : List Char) : Option Nat := t.v_event.findIdx? fun e => e.name == s

/-- The lookup of the table's own functions, which also find a name without the domain. -/
def get_signal (t : EventTable) (signame : List Char) : Option Nat :=
  findSignal AlarmEvent.name removeDomain t.v_event signame

def notSubscribed (signame : List Char) : List Char :=
  "Signal ".toList ++ signame ++ " NOT subscribed".toList

/-- `add`, of a name that is not to be started. -/
def add (signame : List Char) (t : EventTable) : Except (List Char) EventTable :=
  if (t.get_signal signame).isSome then
    .error ("Signal ".toList ++ signame ++ " already subscribed".toList)
  else if '/' ∉ signame then .error ("Syntax error in signal name ".toList ++ signame)
  else
    .ok { t with
      toSignalCounters := t.toSignalCounters.add
      v_event := t.v_event ++ [AlarmEvent.added signame] }

/-- `start` and `stop`: a change of one event with the counters it makes. -/
def onEvent (signame : List Char) (change : AlarmEvent → AlarmEvent)
    (counters : SignalCounters → SignalFlags → SignalCounters) (t : EventTable) :
    Except (List Char) EventTable :=
  match t.get_signal signame with
  | none => .error (notSubscribed signame)
  | some i =>
      .ok { t with
        toSignalCounters :=
          (t.v_event[i]?.map fun e => counters t.toSignalCounters e.toSignalFlags).getD
            t.toSignalCounters
        v_event := t.v_event.modify i change }

def start (signame : List Char) (t : EventTable) : Except (List Char) EventTable :=
  t.onEvent signame AlarmEvent.start SignalCounters.start

def stop (signame : List Char) (t : EventTable) : Except (List Char) EventTable :=
  t.onEvent signame AlarmEvent.stop SignalCounters.stop

/-- `remove`, of an event that has been stopped. -/
def remove (signame : List Char) (t : EventTable) : Except (List Char) EventTable :=
  match t.get_signal signame with
  | none => .error (notSubscribed signame)
  | some i =>
      .ok { t with
        toSignalCounters :=
          (t.v_event[i]?.map fun e => t.toSignalCounters.remove e.toSignalFlags).getD
            t.toSignalCounters
        v_event := t.v_event.eraseIdx i }

/-- The first loop of `add_event`. What it has added stays when a name is refused. -/
def addMissing : List (List Char) → EventTable → EventTable × Except (List Char) Unit
  | [], t => (t, .ok ())
  | s :: evn, t =>
      if (t.find s).isSome then addMissing evn t
      else match t.add s with
        | .error e => (t, .error e)
        | .ok t' => addMissing evn t'

/-- A round of the second loop, for an event that the first loop has left in the table. -/
def link (n : List Char) (t : EventTable) (s : List Char) : EventTable :=
  match t.find s with
  | none => t
  | some i => { t with v_event := t.v_event.modify i (AlarmEvent.push_alarm n) }

/-- A round of the third loop. -/
def started (t : EventTable) (s : List Char) : EventTable :=
  if (t.find s).isSome then (t.start s).toOption.getD t else t

def add_event (n : List Char) (evn : List (List Char)) (t : EventTable) :
    EventTable × Except (List Char) Unit :=
  match t.addMissing evn with
  | (t', .error e) => (t', .error e)
  | (t', .ok ()) => (evn.foldl started (evn.foldl (link n) t'), .ok ())

/-- `remove_alarm`, where no alarm is left on an event. -/
def drop (s : List Char) (t : EventTable) : EventTable × Except (List Char) Unit :=
  let failed := "unsubscribe_event() failed for ".toList ++ s
  match t.stop s with
  | .error _ => (t, .error failed)
  | .ok t' =>
      match t'.remove s with
      | .error _ => (t', .error failed)
      | .ok t'' => (t'', .ok ())

/-- A round of the loop of `remove_alarm`. -/
def unlinkOne (n : List Char) (t : EventTable) (s : List Char) :
    EventTable × Except (List Char) Unit :=
  match t.find s with
  | none => (t, .error ("event '".toList ++ s ++ "' not found in event table".toList))
  | some i =>
      let t' := { t with v_event := t.v_event.modify i (AlarmEvent.pop_alarm n) }
      if t'.v_event[i]?.any fun e => e.m_alarm.isEmpty then t'.drop s else (t', .ok ())

/-- The loop of `remove_alarm`. What it has unlinked stays when it throws. -/
def unlink (n : List Char) : List (List Char) → EventTable → EventTable × Except (List Char) Unit
  | [], t => (t, .ok ())
  | s :: names, t =>
      match t.unlinkOne n s with
      | (t', .error e) => (t', .error e)
      | (t', .ok ()) => unlink n names t'

end EventTable

/-- The two tables of the alarm handler. -/
structure AlarmLinks extends EventTable where
  v_alarm : List TableAlarm

namespace AlarmLinks

/-- `find_event_formula`, as `load_alarm` calls it. -/
def formulaEvents (tree : FormulaTree) : List (List Char) :=
  (FormulaEval.evalNodeEvent tree).toOption.getD []

/-- `load`, of a line that the grammar reads. An event that is refused leaves the alarm without
events, and the command returns. -/
def load (alm : AlarmT) (formula_tree : FormulaTree) (ts unset : TimeVal) (is_new : Bool)
    (l : AlarmLinks) : AlarmLinks :=
  if l.v_alarm.any fun a => a.name == alm.name then l
  else
    match FormulaEval.evalNodeEvent formula_tree with
    | .error _ => l
    | .ok evn =>
        let a := TableAlarm.load alm formula_tree ts unset is_new
        match l.toEventTable.add_event alm.name evn with
        | (t, .error _) => ⟨t, l.v_alarm ++ [a]⟩
        | (t, .ok ()) => ⟨t, l.v_alarm ++ [a.addEvent evn]⟩

def notFound (n : List Char) : List Char :=
  "alarm '".toList ++ n ++ "' not found in alarm table".toList

def remove_alarm (n : List Char) (l : AlarmLinks) : AlarmLinks × Except (List Char) Unit :=
  match l.v_alarm.find? fun a => a.name == n with
  | none => (l, .error (notFound n))
  | some a =>
      match l.toEventTable.unlink n a.s_event with
      | (t, .error e) => (⟨t, l.v_alarm⟩, .error e)
      | (t, .ok ()) => (⟨t, removeKey (fun a : TableAlarm => a.name) l.v_alarm n⟩, .ok ())

inductive Command where
  | load (alm : AlarmT) (formula_tree : FormulaTree) (ts unset : TimeVal) (is_new : Bool)
  | remove (n : List Char)

def step (l : AlarmLinks) : Command → AlarmLinks
  | .load alm formula_tree ts unset is_new => l.load alm formula_tree ts unset is_new
  | .remove n => (l.remove_alarm n).1

def initial : AlarmLinks := ⟨⟨⟨0, 0, 0, 0⟩, []⟩, []⟩

end AlarmLinks

end DshLmc
