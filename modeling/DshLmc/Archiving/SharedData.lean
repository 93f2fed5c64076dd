import DshLmc.Archiving.HdbNames

/-!
# The signals of the archiver

`SharedData` is what the commands of `HdbEventSubscriber` and its subscription thread share: the list
of the signals to archive, the counters of the device, and a number of times the configuration has
still to be saved. Of a signal this is its configuration, and whether it runs, is paused or is stopped.
-/

namespace DshLmc

def HDB_NOTHING : Nat := 0

def HDB_UPDATE_PROP : Nat := 1

def ALWAYS_CONTEXT : List Char := "ALWAYS".toList

structure HdbSignal extends SignalFlags where
  name : List Char
  contexts : List (List Char)
  contexts_upper : List (List Char)
  ttl : UInt32
deriving DecidableEq

structure SharedData extends SignalCounters where
  action : Nat
  signals : List HdbSignal

def upperText (text : List Char) : List Char := text.map Char.toUpper

namespace HdbSignal

def added (signame : List Char) (contexts : List (List Char)) (ttl : UInt32) : HdbSignal where
  toSignalFlags := ⟨false, false, true⟩
  name := signame
  contexts := contexts
  contexts_upper := contexts.map upperText
  ttl := ttl

def start (sig : HdbSignal) : HdbSignal := { sig with toSignalFlags := sig.toSignalFlags.start }

def pause (sig : HdbSignal) : HdbSignal := { sig with toSignalFlags := sig.toSignalFlags.pause }

def stop (sig : HdbSignal) : HdbSignal := { sig with toSignalFlags := sig.toSignalFlags.stop }

def withContexts (contexts : List (List Char)) (sig : HdbSignal) : HdbSignal :=
  { sig with contexts := contexts, contexts_upper := contexts.map upperText }

def withTtl (ttl : UInt32) (sig : HdbSignal) : HdbSignal := { sig with ttl := ttl }

/-- The signal is to be archived in this context. -/
def inContext (context : List Char) (sig : HdbSignal) : Bool :=
  upperText context == ALWAYS_CONTEXT || sig.contexts_upper.contains (upperText context)
    || sig.contexts_upper.contains ALWAYS_CONTEXT

/-- The line of a signal in the configuration. -/
def confString (sig : HdbSignal) : List Char :=
  sig.name ++ ";strategy=".toList ++ ['|'].intercalate sig.contexts ++ ";ttl=".toList
    ++ Nat.toDigits 10 sig.ttl.toNat

end HdbSignal

/-- The second loop of a lookup, which compares the names until one is the same. -/
def findWithoutDomain (signame : List Char) : List HdbSignal → Except HdbError (Option Nat)
  | [] => .ok none
  | sig :: signals => do
      let found ← compare_without_domain sig.name signame
      if found then return some 0
      else
        let i ← findWithoutDomain signame signals
        return i.map (· + 1)

namespace SharedData

/-- The lookup of a signal: the first of this name, and else the first of this name without the
domain. -/
def find (signame : List Char) (d : SharedData) : Except HdbError (Option Nat) :=
  match d.signals.findIdx? fun sig => sig.name == signame with
  | some i => .ok (some i)
  | none => findWithoutDomain signame d.signals

/-- The configuration is to be saved once more, twice at most. -/
def announce (to_do : Nat) (d : SharedData) : SharedData :=
  { d with action := if d.action ≤ HDB_UPDATE_PROP then d.action + to_do else d.action }

def notSubscribed (signame : List Char) : HdbError :=
  .devFailed ("Signal ".toList ++ signame ++ " NOT subscribed".toList)

/-- `add`, up to where the change is announced. -/
def addSignal (signame : List Char) (contexts : List (List Char)) (ttl : UInt32) (d : SharedData) :
    Except HdbError SharedData := do
  let found ← d.find signame
  if found.isSome then
    throw (.devFailed ("Signal ".toList ++ signame ++ " already subscribed".toList))
  else if '/' ∉ signame then throw (.devFailed ("Syntax error in signal name ".toList ++ signame))
  else
    return { d with
      toSignalCounters := d.toSignalCounters.add
      signals := d.signals ++ [HdbSignal.added signame contexts ttl] }

/-- `start`, `pause` and `stop`: a change of one signal with the counters it makes. They look the signal
up again, under the same name, to connect it or to disconnect it. -/
def onSignal (signame : List Char) (change : HdbSignal → HdbSignal)
    (counters : SignalCounters → SignalFlags → SignalCounters) (d : SharedData) :
    Except HdbError SharedData := do
  match ← d.find signame with
  | none => throw (notSubscribed signame)
  | some i =>
      return { d with
        toSignalCounters :=
          (d.signals[i]?.map fun sig => counters d.toSignalCounters sig.toSignalFlags).getD
            d.toSignalCounters
        signals := d.signals.modify i change }

/-- `remove`, up to where the change is announced. It looks into the signal before it knows that there
is one. -/
def removeSignal (signame : List Char) (d : SharedData) : Except HdbError SharedData := do
  match ← d.find signame with
  | none => throw .null
  | some i =>
      return { d with
        toSignalCounters :=
          (d.signals[i]?.map fun sig => d.toSignalCounters.remove sig.toSignalFlags).getD
            d.toSignalCounters
        signals := d.signals.eraseIdx i }

/-- `update` and `updatettl`: a change of the configuration of one signal, up to where it is
announced. -/
def configure (signame : List Char) (change : HdbSignal → HdbSignal) (d : SharedData) :
    Except HdbError SharedData := do
  match ← d.find signame with
  | none => throw (.devFailed ("Signal ".toList ++ signame ++ " NOT found".toList))
  | some i => return { d with signals := d.signals.modify i change }

def add (signame : List Char) (contexts : List (List Char)) (ttl : UInt32) (to_do : Nat)
    (d : SharedData) : Except HdbError SharedData :=
  (d.addSignal signame contexts ttl).map (announce to_do)

def remove (signame : List Char) (d : SharedData) : Except HdbError SharedData :=
  (d.removeSignal signame).map (announce 1)

def start (signame : List Char) (d : SharedData) : Except HdbError SharedData :=
  d.onSignal signame HdbSignal.start SignalCounters.start

def pause (signame : List Char) (d : SharedData) : Except HdbError SharedData :=
  d.onSignal signame HdbSignal.pause SignalCounters.pause

def stop (signame : List Char) (d : SharedData) : Except HdbError SharedData :=
  d.onSignal signame HdbSignal.stop SignalCounters.stop

def update (signame : List Char) (contexts : List (List Char)) (d : SharedData) :
    Except HdbError SharedData :=
  (d.configure signame (HdbSignal.withContexts contexts)).map (announce HDB_UPDATE_PROP)

def updatettl (signame : List Char) (ttl : UInt32) (d : SharedData) : Except HdbError SharedData :=
  (d.configure signame (HdbSignal.withTtl ttl)).map (announce HDB_UPDATE_PROP)

/-- The calls that change the signals. -/
inductive Call where
  | add (signame : List Char) (contexts : List (List Char)) (ttl : UInt32) (to_do : Nat)
  | remove (signame : List Char)
  | start (signame : List Char)
  | pause (signame : List Char)
  | stop (signame : List Char)
  | update (signame : List Char) (contexts : List (List Char))
  | updatettl (signame : List Char) (ttl : UInt32)

def call : Call → SharedData → Except HdbError SharedData
  | .add signame contexts ttl to_do, d => d.add signame contexts ttl to_do
  | .remove signame, d => d.remove signame
  | .start signame, d => d.start signame
  | .pause signame, d => d.pause signame
  | .stop signame, d => d.stop signame
  | .update signame contexts, d => d.update signame contexts
  | .updatettl signame ttl, d => d.updatettl signame ttl

/-- A call that throws has changed nothing. -/
def step (d : SharedData) (r : Call) : SharedData := (d.call r).toOption.getD d

/-- `is_running`, `is_paused`, `is_stopped` and `is_current_context`: a property of one signal. -/
def ask (signame : List Char) (property : HdbSignal → Bool) (d : SharedData) :
    Except HdbError Bool := do
  let found ← d.find signame
  match found.bind fun i => d.signals[i]? with
  | none => throw (notSubscribed signame)
  | some sig => return property sig

def is_running (signame : List Char) (d : SharedData) : Except HdbError Bool :=
  d.ask signame fun sig => sig.running

def is_paused (signame : List Char) (d : SharedData) : Except HdbError Bool :=
  d.ask signame fun sig => sig.paused

def is_stopped (signame : List Char) (d : SharedData) : Except HdbError Bool :=
  d.ask signame fun sig => sig.stopped

def is_current_context (signame context : List Char) (d : SharedData) : Except HdbError Bool :=
  if upperText context = ALWAYS_CONTEXT then .ok true else d.ask signame (HdbSignal.inContext context)

/-- The lines that `put_signal_property` saves. -/
def confStrings (d : SharedData) : List (List Char) := d.signals.map HdbSignal.confString

end SharedData

end DshLmc
