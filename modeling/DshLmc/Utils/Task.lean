import Mathlib.Data.String.Basic
import DshLmc.Utils.Tango
import DshLmc.Utils.YatTime

/-!
# Tasks

A `Task` names a device command, when it may start (activation) and until when (expiration), the
status of its execution and its place in a task sequence. Instants are kept in microseconds and
durations in milliseconds, as `yat::Time` and `yat::Timeout` do. The setters add durations in whole
seconds: `delay_time/1000` is an integer division in the source, and `addMSec` keeps it. Definitions
have the names of the methods they follow.
-/

namespace DshLmc

/-- `t += static_cast<double>(duration/1000)`: the milliseconds are cut to whole seconds. -/
def Time.addMSec (t : Time) (duration : Int) : Time := t + duration.tdiv 1000 * 1000000

/-- A `yat::Timeout` in milliseconds. The constructor enables and starts it. -/
structure Timeout where
  start : Time
  delay : Int
  enabled : Bool := true
deriving DecidableEq

def Timeout.expired (timeout : Timeout) (now : Clock) : Bool :=
  decide (timeout.start + timeout.delay * 1000 ≤ now.utc)

inductive TaskStatus where
  | unknown
  | init
  | idle
  | running
  | completed
  | failed
  | aborted
  | expired
  | canceled
deriving DecidableEq, Repr

/-- The statuses an execution can end with. -/
def TaskStatus.Terminal (status : TaskStatus) : Prop :=
  status = .completed ∨ status = .failed ∨ status = .aborted ∨ status = .expired ∨
    status = .canceled

instance (status : TaskStatus) : Decidable status.Terminal := by
  unfold TaskStatus.Terminal
  infer_instance

structure Task where
  id : String
  cmdName : String
  priority : Int
  cmdArgin : Tango.CorbaAny
  hasArgin : Bool
  arginType : Int
  arginFormat : Int
  status : TaskStatus
  statusInfo : String
  isAsynch : Bool
  statusAttrName : String
  isInSequence : Bool
  sequenceId : String
  sequenceName : String
  sequenceIndex : Int
  dependOnSequenceTasks : Bool
  depTaskSeqIndexes : List Int
  useUTC : Bool
  activationTimeout : Option Timeout
  expirationTimeout : Option Timeout
  hasActivationTime : Bool
  activationTime : Time
  hasExpirationTime : Bool
  maxDuration : Int
  expirationTime : Time
  creationTime : Time
  defaultMaxDuration : Int
  expMaxActivationTime : Time
  expMaxExpirationTime : Time

namespace Task

/-- The timeout after a setter has computed one in milliseconds. One that is not positive leaves the
old one in place; otherwise `InitActivationTimeout` takes it as a `long int`. -/
def initTimeout (now : Clock) (timeout : ℚ) (old : Option Timeout) : Option Timeout :=
  if timeout ≤ 0 then old else some { start := now.utc, delay := truncate timeout }

/-- `Task::SetActivationTimeout`. A timeout that is not positive makes it return -1. -/
def setActivationTimeout (now : Clock) (tStart : Time) (t : Task) : Int × Task :=
  let timeout := TangoUtils.computeYatTimeoutMSec now tStart t.useUTC
  (if timeout ≤ 0 then -1 else 0,
    { t with
      activationTimeout := initTimeout now timeout t.activationTimeout
      hasActivationTime := t.hasActivationTime || decide (0 < timeout) })

def setExpirationTimeout (now : Clock) (tStop : Time) (t : Task) : Int × Task :=
  let timeout := TangoUtils.computeYatTimeoutMSec now tStop t.useUTC
  (if timeout ≤ 0 then -1 else 0,
    { t with
      expirationTimeout := initTimeout now timeout t.expirationTimeout
      hasExpirationTime := t.hasExpirationTime || decide (0 < timeout) })

/-- The constructor: `Init` and `GenerateId`, the identifier being what `GenerateUUID` drew. -/
def create (now : Clock) (uuid name : String) (priorityLevel : Int) (useUTCTime : Bool) : Task :=
  let creation := now.current useUTCTime
  let expiration := creation.addMSec 30000
  let bare : Task := {
    id := uuid
    cmdName := name
    priority := priorityLevel
    cmdArgin := none
    hasArgin := false
    arginType := -1
    arginFormat := -1
    status := .init
    statusInfo := ""
    isAsynch := false
    statusAttrName := ""
    isInSequence := false
    sequenceId := ""
    sequenceName := ""
    sequenceIndex := 0
    dependOnSequenceTasks := false
    depTaskSeqIndexes := []
    useUTC := useUTCTime
    activationTimeout := none
    expirationTimeout := none
    hasActivationTime := false
    activationTime := 0
    hasExpirationTime := false
    maxDuration := 30000
    expirationTime := expiration
    creationTime := creation
    defaultMaxDuration := 30000
    expMaxActivationTime := 0
    expMaxExpirationTime := 0 }
  { (bare.setExpirationTimeout now expiration).2 with hasExpirationTime := true }

def setTaskArgin (argin : Tango.CorbaAny) (dataType dataFormat : Int) (t : Task) : Task :=
  { t with arginType := dataType, arginFormat := dataFormat, cmdArgin := argin, hasArgin := true }

def setActivationTime (now : Clock) (tStart : Time) (t : Task) : Int × Task :=
  if tStart < now.current t.useUTC then (-1, t)
  else
    let t := { t with activationTime := tStart }
    let t := { (t.setActivationTimeout now tStart).2 with hasActivationTime := true }
    let t := { t with expirationTime := tStart.addMSec t.defaultMaxDuration }
    (0, { (t.setExpirationTimeout now t.expirationTime).2 with hasExpirationTime := true })

/-- `Task::SetActivationTimeDelay`. The clock has moved from `now` to `later` when
`SetActivationTime` reads it again. -/
def setActivationTimeDelay (now later : Clock) (delayTime : Int) (t : Task) : Int × Task :=
  if delayTime < 0 then (-1, t)
  else
    let t := { t with activationTime := (now.current t.useUTC).addMSec delayTime }
    t.setActivationTime later t.activationTime

def setExpirationTime (now : Clock) (tStop : Time) (t : Task) : Int × Task :=
  if tStop < now.current t.useUTC then (-1, t)
  else if t.hasActivationTime && decide (tStop ≤ t.activationTime) then (-1, t)
  else
    let t := { t with expirationTime := tStop }
    (0, { (t.setExpirationTimeout now tStop).2 with hasExpirationTime := true })

/-- The reference instant of `time_ref_mode`: `eTIME_NOW`, `eCREATION_TIME`, `eEXTERNAL_TIME`. -/
def timeRef (now : Clock) (timeRefMode : Int) (external : Time) (t : Task) : Option Time :=
  if timeRefMode = 0 then some (now.current t.useUTC)
  else if timeRefMode = 1 then some t.creationTime
  else if timeRefMode = 2 then some external
  else none

/-- `Task::SetMaxDuration`. The duration is stored before the reference mode is looked at, and the
mode is looked at only without an activation time. -/
def setMaxDuration (now : Clock) (duration timeRefMode : Int) (external : Time) (t : Task) :
    Int × Task :=
  if duration < 0 then (-1, t)
  else
    let t := { t with maxDuration := duration }
    match if t.hasActivationTime then some t.activationTime
        else t.timeRef now timeRefMode external with
    | none => (-1, t)
    | some reference =>
        let t := { t with expirationTime := reference.addMSec duration }
        (0, { (t.setExpirationTimeout now t.expirationTime).2 with hasExpirationTime := true })

def setTimeDelayAndDuration (now : Clock) (delayTime duration timeRefMode : Int)
    (external : Time) (t : Task) : Int × Task :=
  if delayTime < 0 ∨ duration < 0 then (-1, t)
  else
    match t.timeRef now timeRefMode external with
    | none => (-1, t)
    | some reference =>
        let t := { t with activationTime := reference.addMSec delayTime }
        let t := { (t.setActivationTimeout now t.activationTime).2 with hasActivationTime := true }
        let t := { t with
          maxDuration := duration
          expirationTime := t.activationTime.addMSec duration }
        (0, { (t.setExpirationTimeout now t.expirationTime).2 with hasExpirationTime := true })

def setAsynchTask (attrName : String) (t : Task) : Task :=
  { t with isAsynch := true, statusAttrName := attrName }

def setStatus (newStatus : TaskStatus) (info : String) (t : Task) : Task :=
  { t with status := newStatus, statusInfo := info }

def setSequenceInfo (seqId : String) (seqIndex : Int) (depTaskIndexes : List Int) (t : Task) :
    Task :=
  { t with
    isInSequence := true
    sequenceId := seqId
    sequenceIndex := seqIndex
    dependOnSequenceTasks := !depTaskIndexes.isEmpty
    depTaskSeqIndexes := depTaskIndexes }

def isActivationReached (now : Clock) (t : Task) : Bool :=
  match t.activationTimeout with
  | none => true
  | some timeout => timeout.enabled && timeout.expired now

def isWaitingForActivation (now : Clock) (t : Task) : Bool :=
  match t.activationTimeout with
  | none => false
  | some timeout => timeout.enabled && !timeout.expired now

def isExpirationReached (now : Clock) (t : Task) : Bool :=
  match t.expirationTimeout with
  | none => false
  | some timeout => timeout.enabled && timeout.expired now

def isRunnable (now : Clock) (t : Task) : Bool :=
  t.status == .idle && t.isActivationReached now && !t.isExpirationReached now

def dependOnTask (t other : Task) : Bool :=
  t.dependOnSequenceTasks
    && t.sequenceId == other.sequenceId && t.sequenceName == other.sequenceName
    && t.depTaskSeqIndexes.contains other.sequenceIndex

/-- Everything in a task but the status of its execution. -/
def fixed (t : Task) : Task := { t with status := .init, statusInfo := "" }

@[simp]
theorem fixed_setStatus (newStatus : TaskStatus) (info : String) (t : Task) :
    (t.setStatus newStatus info).fixed = t.fixed := rfl

@[simp]
theorem status_setStatus (newStatus : TaskStatus) (info : String) (t : Task) :
    (t.setStatus newStatus info).status = newStatus := rfl

end Task

end DshLmc
