import DshLmc.Utils.TangoNames

/-!
# Signals

The archiver and the alarm handler each keep a list of signals, the attributes whose events they
follow. A signal is found by its name, and else by its name without the domain of the host. It runs,
is paused or is stopped, and the device counts how many there are of each.
-/

namespace DshLmc

open Search TangoUtils

/-- `remove_domain` of the alarm handler: what stands from the first dot to the colon of the port is
cut out, if the dot is in the host. -/
def removeDomain (str : List Char) : List Char :=
  match findText ['.'] str with
  | none => str
  | some end1 =>
      match findFrom [':'] str (if (findText tangoPrefix str).isSome then 8 else 0) with
      | none => str
      | some end2 => if end2 < end1 then str else str.take end1 ++ str.drop end2

/-- The lookup of the signals: the first of this name, and else the first of this name without the
domain. -/
def findSignal {σ : Type} (name : σ → List Char) (nd : List Char → List Char) (signals : List σ)
    (signame : List Char) : Option Nat :=
  (signals.findIdx? fun sig => name sig == signame).or
    (signals.findIdx? fun sig => nd (name sig) == nd signame)

structure SignalFlags where
  running : Bool
  paused : Bool
  stopped : Bool
deriving DecidableEq

structure SignalCounters where
  attr_AttributeStartedNumber_read : Int
  attr_AttributePausedNumber_read : Int
  attr_AttributeStoppedNumber_read : Int
  attr_AttributeNumber_read : Int
deriving DecidableEq

/-- `start` of one signal. -/
def SignalFlags.start (f : SignalFlags) : SignalFlags := if f.running then f else ⟨true, false, false⟩

def SignalFlags.pause (f : SignalFlags) : SignalFlags := if f.paused then f else ⟨false, true, false⟩

def SignalFlags.stop (f : SignalFlags) : SignalFlags := if f.stopped then f else ⟨false, false, true⟩

namespace SignalCounters

/-- The counters after `start` of a signal with these flags. -/
def start (c : SignalCounters) (f : SignalFlags) : SignalCounters :=
  if f.running then c
  else { c with
    attr_AttributeStoppedNumber_read := c.attr_AttributeStoppedNumber_read - f.stopped.toInt
    attr_AttributePausedNumber_read := c.attr_AttributePausedNumber_read - f.paused.toInt
    attr_AttributeStartedNumber_read := c.attr_AttributeStartedNumber_read + 1 }

def pause (c : SignalCounters) (f : SignalFlags) : SignalCounters :=
  if f.paused then c
  else { c with
    attr_AttributePausedNumber_read := c.attr_AttributePausedNumber_read + 1
    attr_AttributeStartedNumber_read := c.attr_AttributeStartedNumber_read - f.running.toInt
    attr_AttributeStoppedNumber_read := c.attr_AttributeStoppedNumber_read - f.stopped.toInt }

def stop (c : SignalCounters) (f : SignalFlags) : SignalCounters :=
  if f.stopped then c
  else { c with
    attr_AttributeStoppedNumber_read := c.attr_AttributeStoppedNumber_read + 1
    attr_AttributeStartedNumber_read := c.attr_AttributeStartedNumber_read - f.running.toInt
    attr_AttributePausedNumber_read := c.attr_AttributePausedNumber_read - f.paused.toInt }

/-- A new signal is stopped. -/
def add (c : SignalCounters) : SignalCounters :=
  { c with
    attr_AttributeNumber_read := c.attr_AttributeNumber_read + 1
    attr_AttributeStoppedNumber_read := c.attr_AttributeStoppedNumber_read + 1 }

def remove (c : SignalCounters) (f : SignalFlags) : SignalCounters where
  attr_AttributeStartedNumber_read := c.attr_AttributeStartedNumber_read - f.running.toInt
  attr_AttributePausedNumber_read := c.attr_AttributePausedNumber_read - f.paused.toInt
  attr_AttributeStoppedNumber_read := c.attr_AttributeStoppedNumber_read - f.stopped.toInt
  attr_AttributeNumber_read := c.attr_AttributeNumber_read - 1

end SignalCounters

end DshLmc
