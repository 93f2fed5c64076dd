import DshLmc.Utils.EvtSubscriptionData

/-!
# Loggers of a device

A device logs to a central and an element target through appenders of its Tango logger, and to a
storage target through the system logger of the process. Each target has attributes for its level,
its target and whether it is enabled. The Tango logger has a main level as well, and drops every
message above it before an appender sees it.
-/

namespace DshLmc

namespace Tango

def logOff : Int := 0
def logInfo : Int := 4
def logDebug : Int := 5

/-- The levels that `tango_to_log4tango_level` converts. It throws on the others. -/
def isLogLevel (level : Int) : Bool := logOff ≤ level && level ≤ logDebug

end Tango

inductive LoggerStatus where
  | unknown
  | ok
  | failed
  | disabled
deriving DecidableEq

inductive LogTarget where
  | central
  | element
  | storage
deriving DecidableEq

/-- The attributes of a target. -/
structure LogTargetAttrs where
  loggerEnabled : Bool
  loggingLevel : Int
  loggingTarget : String
  loggerStatus : LoggerStatus
deriving DecidableEq

/-- The attributes, the main level of the logger of the device, the levels of its appenders, and
the level of the system logger. -/
structure Loggers where
  attrs : LogTarget → LogTargetAttrs
  level : Int
  appenders : List Char → Option Int
  sysLogger : Option Int

/-- What the loggers find while a call runs. -/
structure LogSystem where
  get_logger : Bool
  appenders_have_level_threshold : Bool
  connects : String → Bool
  is_valid : List Char → Bool
  new_appender_level : Int
  init_sys_logger : Bool

structure Memorized (α : Type) where
  written : Option α
  default : α

/-- What `InitLoggerPars` finds for a target. -/
structure LogTargetPars where
  loggerEnabled : Memorized Bool
  loggingTarget : Memorized String
  loggingLevel : Memorized Int

namespace Memorized

def value {α : Type} (m : Memorized α) : α := m.written.getD m.default

end Memorized

namespace Loggers

def setAttrs (s : Loggers) (t : LogTarget) (change : LogTargetAttrs → LogTargetAttrs) : Loggers :=
  { s with attrs := fun other => if other = t then change (s.attrs t) else s.attrs other }

def setStatus (s : Loggers) (t : LogTarget) (status : LoggerStatus) : Loggers :=
  s.setAttrs t fun attrs => { attrs with loggerStatus := status }

def appenderName (loggingTarget : String) : List Char := lowerChars ("device::" ++ loggingTarget)

/-- `InitLoggerPars`. The default target of the central logger goes to the element logger, which
takes its own afterwards, and the central one keeps what it had. -/
def initLoggerPars (s : Loggers) (pars : LogTarget → LogTargetPars) : Loggers :=
  let target : LogTarget → String
    | .central => (pars .central).loggingTarget.written.getD (s.attrs .central).loggingTarget
    | t => (pars t).loggingTarget.value
  { s with
    attrs := fun t =>
      { loggerEnabled := (pars t).loggerEnabled.value
        loggingLevel := (pars t).loggingLevel.value
        loggingTarget := target t
        loggerStatus := if (pars t).loggerEnabled.value then .unknown else .disabled } }

variable (sys : LogSystem)

/-- `SetAppenderLogLevel`, and whether it returns 0. -/
def setAppenderLogLevel (s : Loggers) (appender_name : List Char) (log_level : Int) :
    Loggers × Bool :=
  if sys.appenders_have_level_threshold && Tango.isLogLevel log_level
      && (s.appenders appender_name).isSome then
    ({ s with
        appenders := fun name =>
          if name = appender_name then some log_level else s.appenders name }, true)
  else (s, false)

/-- `InitCentralLogger` and `InitElementLogger`, and whether they return. -/
def initDeviceLogger (s : Loggers) (t : LogTarget) (setLogLevels : Bool) : Loggers × Bool :=
  let loggingTarget := (s.attrs t).loggingTarget
  let log_target := appenderName loggingTarget
  if loggingTarget = "" then (s, true)
  else if (s.appenders log_target).isNone && !sys.connects loggingTarget then (s, false)
  else
    let s' : Loggers :=
      { s with
        appenders := fun name =>
          if name = log_target then some ((s.appenders name).getD sys.new_appender_level)
          else s.appenders name }
    if setLogLevels then s'.setAppenderLogLevel sys log_target (s.attrs t).loggingLevel
    else (s', true)

/-- The level that the system logger takes for a Tango level. -/
def mappedLogLevel (level : Int) : Int := if Tango.isLogLevel level then level else Tango.logOff

/-- `InitStorageLogger`, and whether it returns. A system logger that exists is kept, and one that
cannot be initialized as well. -/
def initStorageLogger (s : Loggers) : Loggers × Bool :=
  if (s.attrs .storage).loggingTarget = "" then (s, true)
  else
    match s.sysLogger with
    | some _ => (s, true)
    | none =>
        ({ s with sysLogger := some (mappedLogLevel (s.attrs .storage).loggingLevel) },
          sys.init_sys_logger)

def initCentralLogger (s : Loggers) (setLogLevels : Bool) : Loggers × Bool :=
  s.initDeviceLogger sys .central setLogLevels

def initElementLogger (s : Loggers) (setLogLevels : Bool) : Loggers × Bool :=
  s.initDeviceLogger sys .element setLogLevels

def initLogger (s : Loggers) (t : LogTarget) (setLogLevels : Bool) : Loggers × Bool :=
  match t with
  | .central => s.initCentralLogger sys setLogLevels
  | .element => s.initElementLogger sys setLogLevels
  | .storage => s.initStorageLogger sys

def enabledLevel (s : Loggers) (t : LogTarget) : Int :=
  if (s.attrs t).loggerEnabled then (s.attrs t).loggingLevel else Tango.logOff

def setMainLoggerLevel (s : Loggers) : Option Loggers :=
  let maxLogLevel := max Tango.logInfo
    (max (s.enabledLevel .central) (max (s.enabledLevel .element) (s.enabledLevel .storage)))
  if Tango.isLogLevel maxLogLevel then some { s with level := maxLogLevel } else none

/-- One target in `InitLoggers`, with the status so far. -/
def initLoggerIfEnabled (t : LogTarget) (setLogLevels : Bool) (s : Loggers × Int) :
    Loggers × Int :=
  if (s.1.attrs t).loggerEnabled then
    match s.1.initLogger sys t setLogLevels with
    | (s', true) => (s'.setStatus t .ok, s.2)
    | (s', false) => (s'.setStatus t .failed, -1)
  else s

/-- `InitLoggers`, and the status that it returns unless it throws. -/
def initLoggers (s : Loggers) (setLogLevels : Bool) : Loggers × Option Int :=
  if !sys.get_logger then (s, none)
  else
    match if setLogLevels then s.setMainLoggerLevel else some s with
    | none => (s, none)
    | some s' =>
        let result := initLoggerIfEnabled sys .storage setLogLevels
          (initLoggerIfEnabled sys .central setLogLevels
            (initLoggerIfEnabled sys .element setLogLevels (s', 0)))
        (result.1, some result.2)

/-- The end of an `Enable` function. -/
def enabledWith (t : LogTarget) : Loggers × Bool → Loggers × Bool
  | (s, true) => (s.setStatus t .ok, true)
  | (s, false) => (s.setStatus t .failed, false)

def enableCentralLogger (s : Loggers) : Loggers × Bool :=
  if !sys.get_logger then (s, false)
  else enabledWith .central (s.initCentralLogger sys true)

def enableElementLogger (s : Loggers) : Loggers × Bool :=
  if !sys.get_logger then (s, false)
  else enabledWith .element (s.initElementLogger sys true)

def enableStorageLogger (s : Loggers) : Loggers × Bool :=
  enabledWith .storage (s.initStorageLogger sys)

def enableLogger (s : Loggers) : LogTarget → Loggers × Bool
  | .central => s.enableCentralLogger sys
  | .element => s.enableElementLogger sys
  | .storage => s.enableStorageLogger sys

/-- What `DisableCentralLogger` and `DisableElementLogger` have in common. Zombies go together with
the appender. -/
def disableDeviceLogger (s : Loggers) (t : LogTarget) : Loggers × Bool :=
  let loggingTarget := (s.attrs t).loggingTarget
  if loggingTarget = "" then (s, true)
  else if !sys.get_logger then (s, false)
  else
    let s' : Loggers :=
      { s with
        appenders := fun name =>
          if name = appenderName loggingTarget || !sys.is_valid name then none
          else s.appenders name }
    (s'.setStatus t .disabled, true)

def disableCentralLogger (s : Loggers) : Loggers × Bool := s.disableDeviceLogger sys .central

def disableElementLogger (s : Loggers) : Loggers × Bool := s.disableDeviceLogger sys .element

def disableStorageLogger (s : Loggers) : Loggers × Bool :=
  ({ s with sysLogger := none }.setStatus .storage .disabled, true)

def disableLogger (s : Loggers) : LogTarget → Loggers × Bool
  | .central => s.disableCentralLogger sys
  | .element => s.disableElementLogger sys
  | .storage => s.disableStorageLogger

/-- What the writers of the levels have in common. The main level is computed again when the level
is above those of the other targets. -/
def writeLoggingLevel (s : Loggers) (t other other' : LogTarget)
    (setLevel : Loggers → Loggers × Bool) (w_val : Int) : Loggers × Bool :=
  let s := s.setAttrs t fun attrs => { attrs with loggingLevel := w_val }
  if (s.attrs t).loggerEnabled then
    if w_val > max (s.attrs other).loggingLevel (s.attrs other').loggingLevel then
      let result := s.initLoggers sys true
      (result.1, result.2.isSome)
    else setLevel s
  else (s, true)

def write_loggingLevelCentral (s : Loggers) (w_val : Int) : Loggers × Bool :=
  s.writeLoggingLevel sys .central .element .storage
    (fun s =>
      s.setAppenderLogLevel sys (appenderName (s.attrs .central).loggingTarget) w_val) w_val

def write_loggingLevelElement (s : Loggers) (w_val : Int) : Loggers × Bool :=
  s.writeLoggingLevel sys .element .central .storage
    (fun s =>
      s.setAppenderLogLevel sys (appenderName (s.attrs .element).loggingTarget) w_val) w_val

/-- The level of the storage target is that of the system logger. -/
def write_loggingLevelStorage (s : Loggers) (w_val : Int) : Loggers × Bool :=
  s.writeLoggingLevel sys .storage .central .element
    (fun s =>
      match s.sysLogger with
      | none => (s, false)
      | some _ => ({ s with sysLogger := some (mappedLogLevel w_val) }, true)) w_val

/-- What the writers of the flags have in common. The flag changes when the call has returned. -/
def writeLoggerEnabled (s : Loggers) (t : LogTarget) (w_val : Bool) : Loggers × Bool :=
  match if w_val then s.enableLogger sys t else s.disableLogger sys t with
  | (s', true) => (s'.setAttrs t fun attrs => { attrs with loggerEnabled := w_val }, true)
  | (s', false) => (s', false)

def write_centralLoggerEnabled (s : Loggers) (w_val : Bool) : Loggers × Bool :=
  s.writeLoggerEnabled sys .central w_val

def write_elementLoggerEnabled (s : Loggers) (w_val : Bool) : Loggers × Bool :=
  s.writeLoggerEnabled sys .element w_val

def write_storageLoggerEnabled (s : Loggers) (w_val : Bool) : Loggers × Bool :=
  s.writeLoggerEnabled sys .storage w_val

/-- What the writers of the targets have in common. -/
def writeLoggingTarget (s : Loggers) (t : LogTarget) (w_val : String) : Loggers × Bool :=
  if (s.attrs t).loggerEnabled then
    match s.disableLogger sys t with
    | (s', false) => (s', false)
    | (s', true) =>
        (s'.setAttrs t fun attrs => { attrs with loggingTarget := w_val }).enableLogger sys t
  else (s.setAttrs t fun attrs => { attrs with loggingTarget := w_val }, true)

def write_loggingTargetCentral (s : Loggers) (w_val : String) : Loggers × Bool :=
  s.writeLoggingTarget sys .central w_val

def write_loggingTargetElement (s : Loggers) (w_val : String) : Loggers × Bool :=
  s.writeLoggingTarget sys .element w_val

def write_loggingTargetStorage (s : Loggers) (w_val : String) : Loggers × Bool :=
  s.writeLoggingTarget sys .storage w_val

end Loggers

inductive LoggerWrite where
  | loggingLevel (t : LogTarget) (w_val : Int)
  | loggerEnabled (t : LogTarget) (w_val : Bool)
  | loggingTarget (t : LogTarget) (w_val : String)

/-- The state that a write leaves, and whether it succeeded. -/
def Loggers.write (s : Loggers) (sys : LogSystem) : LoggerWrite → Loggers × Bool
  | .loggingLevel .central w_val => s.write_loggingLevelCentral sys w_val
  | .loggingLevel .element w_val => s.write_loggingLevelElement sys w_val
  | .loggingLevel .storage w_val => s.write_loggingLevelStorage sys w_val
  | .loggerEnabled .central w_val => s.write_centralLoggerEnabled sys w_val
  | .loggerEnabled .element w_val => s.write_elementLoggerEnabled sys w_val
  | .loggerEnabled .storage w_val => s.write_storageLoggerEnabled sys w_val
  | .loggingTarget .central w_val => s.write_loggingTargetCentral sys w_val
  | .loggingTarget .element w_val => s.write_loggingTargetElement sys w_val
  | .loggingTarget .storage w_val => s.write_loggingTargetStorage sys w_val

end DshLmc
