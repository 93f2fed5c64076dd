import Mathlib.Data.Int.Notation
import Mathlib.Data.List.Basic

/-!
# The configuration of a band

The sub-elements configure the band. `ConfigureTask` watches them through `configureStatusFlag` and
reports the outcome in `configureStatus` and in the state of the device. It runs in a thread of its
own and processes one message after the other. A periodic or a timeout message comes only while its
activity is enabled.
-/

namespace DshLmc

inductive DevState where
  | ON | OFF | CLOSE | OPEN | INSERT | EXTRACT | MOVING | STANDBY | FAULT | INIT | RUNNING | ALARM
  | DISABLE | UNKNOWN
deriving DecidableEq

/-- `TangoUtils::GetEnumAttrValue`. The code is -1 when the attribute has no such label. -/
def TangoUtils.getEnumAttrValue (enum_labels : List String) (enumLabel : String) : Int :=
  if enumLabel ∈ enum_labels then enum_labels.idxOf enumLabel else -1

/-- The enumeration `configureStatus`, with the labels that the task writes. -/
structure ConfigureStatus where
  enum_labels : List String
  labels_subset : ["RUNNING", "COMPLETED", "FAILED", "TIMED-OUT"] ⊆ enum_labels

structure ConfigureTask where
  bandId : Int16
  configureStartTimestamp : Int
  periodicEnabled : Bool
  timeoutEnabled : Bool
  configureStatus : Int
  configureTimestamp : Int32
  configureDate : String
  configurationTime : Int
  state : DevState
  status : String

namespace ConfigureTask

/-- The constructor leaves the attributes and the state of the device as they are. -/
def create (device : ConfigureTask) : ConfigureTask :=
  { device with periodicEnabled := false, timeoutEnabled := false }

/-- What a handler does to the task and to the device. -/
inductive Action where
  | configure (bandId : Int16) (configureStartTimestamp : Int)
  | enablePeriodicMsg (enable : Bool)
  | enableTimeoutMsg (enable : Bool)
  | setConfigureStatus (label : String)
  | setConfigureTimestamp (timestamp : Int32)
  | setConfigureDate (date : String)
  | setConfigurationTime (elapsed : Int)
  | setState (state : DevState) (status : String)
deriving DecidableEq

def act (statuses : ConfigureStatus) (t : ConfigureTask) : Action → ConfigureTask
  | .configure bandId startTime =>
      { t with bandId := bandId, configureStartTimestamp := startTime }
  | .enablePeriodicMsg enable => { t with periodicEnabled := enable }
  | .enableTimeoutMsg enable => { t with timeoutEnabled := enable }
  | .setConfigureStatus label =>
      { t with configureStatus := TangoUtils.getEnumAttrValue statuses.enum_labels label }
  | .setConfigureTimestamp timestamp => { t with configureTimestamp := timestamp }
  | .setConfigureDate date => { t with configureDate := date }
  | .setConfigurationTime elapsed => { t with configurationTime := elapsed }
  | .setState state status => { t with state := state, status := status }

/-- The messages of the task. The label of `configureStatusFlag` is missing when it cannot be read.
`post_config_action_i` throws nothing but `Tango::DevFailed`. -/
inductive Message where
  | taskPeriodic (configureStatusFlag : Option String) (postConfigSucceeds : Bool)
  | taskTimeout (now : Int) (date : String)
  | startPeriodic
  | stopPeriodic
  | startTimeout
  | stopTimeout
  | executeConfigure (bandId : Int16) (startTime : Int)
deriving DecidableEq

/-- `periodic_job_i`. It throws when it cannot read the flag. -/
def periodicJob (t : ConfigureTask) (configureStatusFlag : Option String)
    (postConfigSucceeds : Bool) : List Action :=
  match configureStatusFlag with
  | none => []
  | some flag =>
      if flag = "RUNNING" then [.setConfigureStatus "RUNNING"]
      else if flag = "IDLE" then []
      else if flag = "ON-BAND" then
        -- the handler of the exception does not leave the branch
        (if postConfigSucceeds then [] else [.setConfigureStatus "FAILED"]) ++
          [.setConfigureStatus "COMPLETED", .enablePeriodicMsg false, .enableTimeoutMsg false,
            .setState .ON s!"Dish configuration for band {t.bandId} completed with success"]
      else if flag = "FAILED" then
        [.setConfigureStatus "FAILED",
          .setState .ALARM s!"Dish configuration for band {t.bandId} completed with success",
          .enablePeriodicMsg false, .enableTimeoutMsg false]
      else []

def timeoutJob (t : ConfigureTask) (now : Int) (date : String) : List Action :=
  let configure_timestamp := Int32.ofInt now
  [.enablePeriodicMsg false, .enableTimeoutMsg false,
    .setState .ALARM s!"Dish configuration for band {t.bandId} timed-out!",
    .setConfigureStatus "TIMED-OUT", .setConfigureTimestamp configure_timestamp,
    .setConfigureDate date,
    .setConfigurationTime (configure_timestamp.toInt - t.configureStartTimestamp),
    .configure (-1) (-1)]

def executeConfigure (bandId : Int16) (startTime : Int) : List Action :=
  [.configure bandId startTime, .enableTimeoutMsg true, .enablePeriodicMsg true]

def Message.isDelivered (t : ConfigureTask) : Message → Bool
  | .taskPeriodic _ _ => t.periodicEnabled
  | .taskTimeout _ _ => t.timeoutEnabled
  | _ => true

def processMessage (t : ConfigureTask) : Message → List Action
  | .taskPeriodic flag succeeds => t.periodicJob flag succeeds
  | .taskTimeout now date => t.timeoutJob now date
  | .startPeriodic => [.enablePeriodicMsg true]
  | .stopPeriodic => [.enablePeriodicMsg false]
  | .startTimeout => [.enableTimeoutMsg true]
  | .stopTimeout => [.enableTimeoutMsg false]
  | .executeConfigure bandId startTime => ConfigureTask.executeConfigure bandId startTime

def actions (t : ConfigureTask) (m : Message) : List Action :=
  if m.isDelivered t then t.processMessage m else []

def step (statuses : ConfigureStatus) (t : ConfigureTask) (m : Message) : ConfigureTask :=
  (t.actions m).foldl (act statuses) t

end ConfigureTask

end DshLmc
