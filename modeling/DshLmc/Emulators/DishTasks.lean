import DshLmc.Emulators.DishAttributes

/-!
# The tasks of the dish

Four commands post a message to the task thread and report in a progress attribute. The thread takes
the messages in order. A handler makes one call after the other; other commands may run between two
of its calls, and it ends at the first call that fails. `shutdown` posts a message of its own, which
runs the handler of `SetStandbyLPMode` with its preconditions.
-/

namespace DshLmc

inductive ProgressAttr where
  | stowProgress
  | indexingProgress
  | setStandbyLPModeProgress
  | setStandbyFPModeProgress
  | setPointModeProgress
deriving DecidableEq

inductive TaskMessage where
  | setStandbyLP
  | setStandbyFP
  | setPoint
  | moveIndexer (indexer_position : Int)
  | shutdown

/-- The progress attribute of the command that posts the message. -/
def TaskMessage.progressAttr : TaskMessage → Option ProgressAttr
  | .setStandbyLP => some .setStandbyLPModeProgress
  | .setStandbyFP => some .setStandbyFPModeProgress
  | .setPoint => some .setPointModeProgress
  | .moveIndexer _ => some .indexingProgress
  | .shutdown => none

inductive HandlerStep where
  | setStatus (status : ProgressStatus)
  | call (c : DishCall)
  | getLabel
  | timedWait
  | setTracking (enabled : Bool)
  | checkRunning
  | checkAllowed
  | checkMode (label : String)

/-- A handler that runs, and the progress attribute that it reports in. -/
structure Handling where
  attr : ProgressAttr
  steps : List HandlerStep

/-- The device as the commands and their handlers see it. -/
structure DishTasks where
  attrs : DishAttrs
  progress : ProgressAttr → ProgressStatus := fun _ => .INIT
  trackingEnabled : Bool := false
  queue : List TaskMessage := []
  handling : Option Handling := none

namespace DishTasks

/-- `SetStowStatus` and its siblings. -/
def setStatus (s : DishTasks) (attr : ProgressAttr) (status : ProgressStatus) : DishTasks :=
  { s with progress := fun a => if a = attr then status else s.progress a }

def setBrakes (value : Bool) : List HandlerStep :=
  DishAxis.all.map fun axis => .call (.set (.brakeState axis value))

def setServos (value : Bool) : List HandlerStep :=
  DishAxis.all.map fun axis => .call (.set (.servoState axis value))

/-- The power state, unless it is `UPS`, the pointing state and the mode. -/
def setStates (powerState pointingState mode : String) : List HandlerStep :=
  [.call (.getPowerState fun label => if label ≠ "UPS" then some powerState else none),
    .call (.set (.pointingState pointingState)), .call (.set (.operatingMode mode))]

def execute_set_standby_lp_i (checkPreConditions : Bool) : List HandlerStep :=
  (if checkPreConditions then
      [.checkRunning, .setStatus .RUNNING, .checkAllowed, .checkMode "STANDBY-LP"]
    else [])
    ++ [.setStatus .RUNNING, .timedWait, .setTracking false]
    ++ setBrakes true ++ setServos false ++ setStates "LOW-POWER" "NONE" "STANDBY-LP"
    ++ [.setStatus .COMPLETED]

def execute_set_standby_fp_i : List HandlerStep :=
  [.setStatus .RUNNING, .timedWait, .setTracking false]
    ++ setBrakes true ++ setServos true ++ setStates "FULL-POWER" "NONE" "STANDBY-FP"
    ++ [.setStatus .COMPLETED]

def execute_set_point_i : List HandlerStep :=
  [.setStatus .RUNNING, .timedWait]
    ++ setServos true ++ setBrakes false ++ setStates "FULL-POWER" "READY" "POINT"
    ++ [.setTracking true, .setStatus .COMPLETED]

/-- The value of the label `MOVING` comes from the configuration. -/
def execute_move_indexer_i (indexerPos_moving indexer_pos : Int) : List HandlerStep :=
  [.setStatus .RUNNING, .getLabel, .call (.set (.indexerPosition indexerPos_moving)), .timedWait,
    .call (.set (.indexerPosition indexer_pos)), .setStatus .COMPLETED]

def process_message (indexerPos_moving : Int) : TaskMessage → Handling
  | .setStandbyLP => ⟨.setStandbyLPModeProgress, execute_set_standby_lp_i false⟩
  | .setStandbyFP => ⟨.setStandbyFPModeProgress, execute_set_standby_fp_i⟩
  | .setPoint => ⟨.setPointModeProgress, execute_set_point_i⟩
  | .moveIndexer indexer_pos =>
      ⟨.indexingProgress, execute_move_indexer_i indexerPos_moving indexer_pos⟩
  | .shutdown => ⟨.setStandbyLPModeProgress, execute_set_standby_lp_i true⟩

end DishTasks

/-- What a handler finds in a step: whether the call that it makes succeeds, and whether its wait is
signalled. -/
structure HandlerTurn where
  succeeds : Bool := true
  signalled : Bool := false

namespace DishTasks

/-- A step of a handler, and the steps that it adds to the rest unless the handler ends. -/
def handlerStep (s : DishTasks) (e : HandlerTurn) (attr : ProgressAttr) :
    HandlerStep → DishTasks × Option (List HandlerStep)
  | .setStatus status => (s.setStatus attr status, some [])
  | .call c =>
      match c.answer s.attrs e.succeeds with
      | some (attrs, more) => ({ s with attrs := attrs }, some (more.map .call))
      | none => (s.setStatus attr .FAILED, none)
  | .getLabel => if e.succeeds then (s, some []) else (s.setStatus attr .FAILED, none)
  | .timedWait => if e.signalled then (s.setStatus attr .ABORTED, none) else (s, some [])
  | .setTracking enabled => ({ s with trackingEnabled := enabled }, some [])
  | .checkRunning => if (s.progress attr).isBusy then (s, none) else (s, some [])
  | .checkAllowed => if e.succeeds then (s, some []) else (s.setStatus attr .ABORTED, none)
  | .checkMode label =>
      if !e.succeeds then (s.setStatus attr .ABORTED, none)
      else if s.attrs.operatingMode = label then (s.setStatus attr .COMPLETED, none)
      else (s, some [])

/-- What is left of a handler. It has ended with its last step. -/
def Handling.next (attr : ProgressAttr) (rest : List HandlerStep) :
    Option (List HandlerStep) → Option Handling
  | some more => if more ++ rest = [] then none else some ⟨attr, more ++ rest⟩
  | none => none

def taskStep (indexerPos_moving : Int) (s : DishTasks) (e : HandlerTurn) : DishTasks :=
  match s.handling with
  | none =>
      match s.queue with
      | [] => s
      | msg :: rest =>
          { s with queue := rest, handling := some (process_message indexerPos_moving msg) }
  | some ⟨_, []⟩ => { s with handling := none }
  | some ⟨attr, step :: rest⟩ =>
      match s.handlerStep e attr step with
      | (s', next) => { s' with handling := Handling.next attr rest next }

end DishTasks

inductive DishCommand where
  | setStandbyLPMode
  | setStandbyFPMode
  | setPointMode
  | setIndexPosition (argin : Int)

/-- The attribute that the command checks and reports in. -/
def DishCommand.progressAttr : DishCommand → ProgressAttr
  | .setStandbyLPMode => .setStandbyLPModeProgress
  | .setStandbyFPMode => .setStandbyFPModeProgress
  | .setPointMode => .setPointModeProgress
  | .setIndexPosition _ => .indexingProgress

/-- What a command finds: whether it is allowed, its reads of attributes succeed, and the message
can be posted. -/
structure CommandTurn where
  allowed : Bool := true
  getsAttrs : Bool := true
  posts : Bool := true

namespace DishTasks

/-- The command goes as far as to post its message, unless `active` says that there is nothing to
be done. -/
def schedules (s : DishTasks) (e : CommandTurn) (attr : ProgressAttr) (active : Bool) : Bool :=
  e.allowed && !(s.progress attr).isBusy && e.getsAttrs && !active

/-- What the commands have in common: the state that a command leaves, and the acknowledge code that
it returns unless it throws. The status goes to `failureAttr` when the message cannot be posted. -/
def command (s : DishTasks) (e : CommandTurn) (attr : ProgressAttr) (active : Bool)
    (msg : TaskMessage) (failureAttr : ProgressAttr) : DishTasks × Option Int :=
  if s.schedules e attr active then
    let s := s.setStatus attr .IDLE
    if e.posts then ({ s with queue := s.queue ++ [msg] }, some 1)
    else (s.setStatus failureAttr .ABORTED, none)
  else if e.allowed && !(s.progress attr).isBusy && e.getsAttrs then
    (s.setStatus attr .COMPLETED, some 0)
  else (s, none)

def standbyLPActive (s : DishTasks) : Bool := s.attrs.operatingMode == "STANDBY-LP"

def standbyFPActive (s : DishTasks) : Bool :=
  s.attrs.operatingMode == "STANDBY-FP" && s.attrs.powerState == "FULL-POWER"

def pointActive (s : DishTasks) : Bool := s.attrs.operatingMode == "POINT"

def set_standby_lpmode (s : DishTasks) (e : CommandTurn) : DishTasks × Option Int :=
  s.command e .setStandbyLPModeProgress s.standbyLPActive .setStandbyLP .setStandbyLPModeProgress

/-- The failure to post goes to the other attribute. -/
def set_standby_fpmode (s : DishTasks) (e : CommandTurn) : DishTasks × Option Int :=
  s.command e .setStandbyFPModeProgress s.standbyFPActive .setStandbyFP .setStandbyLPModeProgress

def set_point_mode (s : DishTasks) (e : CommandTurn) : DishTasks × Option Int :=
  s.command e .setPointModeProgress s.pointActive .setPoint .setPointModeProgress

def set_index_position (s : DishTasks) (e : CommandTurn) (argin : Int) : DishTasks × Option Int :=
  s.command e .indexingProgress (argin == s.attrs.indexerPosition) (.moveIndexer argin)
    .indexingProgress

def execute (s : DishTasks) (e : CommandTurn) : DishCommand → DishTasks × Option Int
  | .setStandbyLPMode => s.set_standby_lpmode e
  | .setStandbyFPMode => s.set_standby_fpmode e
  | .setPointMode => s.set_point_mode e
  | .setIndexPosition argin => s.set_index_position e argin

end DishTasks

inductive DishInput where
  | command (c : DishCommand) (e : CommandTurn)
  | shutdown
  | task (e : HandlerTurn)
  | setStowStatus (status : ProgressStatus)
  | setTracking (enabled : Bool)
  | setAttrs (attrs : DishAttrs)

namespace DishTasks

/-- A step of the device: a command, a step of the task thread, or one of another thread. -/
def step (indexerPos_moving : Int) (s : DishTasks) : DishInput → DishTasks
  | .command c e => (s.execute e c).1
  | .shutdown => { s with queue := s.queue ++ [.shutdown] }
  | .task e => s.taskStep indexerPos_moving e
  | .setStowStatus status => s.setStatus .stowProgress status
  | .setTracking enabled => { s with trackingEnabled := enabled }
  | .setAttrs attrs => { s with attrs := attrs }

end DishTasks

end DshLmc
