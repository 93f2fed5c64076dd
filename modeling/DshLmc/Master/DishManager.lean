import Mathlib.Data.List.MinMax
import DshLmc.Core.SMDynAttr
import DshLmc.Core.TaskThread

/-!
# The commands of the dish manager

A command checks a few attributes, prepares a task sequence and schedules it, and reports in the
progress attribute of the sequence. `UpdateStatusAttrs` copies the status of the most recent sequence
into each of these attributes. The worker runs commands as well, as handlers of its tasks and without
the lock of the device. So a command is a list of accesses to the attributes and to the task manager,
and any thread may run between two of them.
-/

namespace DshLmc

def TaskManager.getTaskStatusString : TaskStatus → String
  | .unknown => "UNKNOWN"
  | .init => "INIT"
  | .idle => "IDLE"
  | .running => "RUNNING"
  | .completed => "COMPLETED"
  | .failed => "FAILED"
  | .aborted => "ABORTED"
  | .expired => "EXPIRED"
  | .canceled => "CANCELED"

namespace DishManager

/-- The attributes that the commands read and write. The value of an enumeration is kept as its
label. -/
structure Attrs where
  progress : String → List String
  dishMode : String
  seCtrlPowerStatus : String
  handlerEnabled : String → Bool

/-- `SetDynAttrValue` of a progress attribute. -/
def Attrs.setProgress (outcome : WriteOutcome) (attr_name : String) (value : List String)
    (attrs : Attrs) : Attrs :=
  if outcome = .failsBefore then attrs
  else { attrs with progress := Function.update attrs.progress attr_name value }

/-- The status of a task that is scheduled or running, as it reads in a progress attribute. -/
def taskSequence_progress_ongoing : List String := ["INIT", "IDLE", "RUNNING"]

def isTaskRunning (taskProgress : List String) : Bool :=
  taskProgress.head?.any taskSequence_progress_ongoing.contains

/-! ### What commands are made of -/

inductive Action where
  | isCmdAllowed (allowed : Bool)
  | checkHandlerEnabled (handlerEnabled_attr_name : String)
  /-- The argument, if it can be decoded, and then whether it is the event to handle. -/
  | checkTaskData (isEvent : Option Bool)
  | checkMode (mode_str attr_name : String) (taskAlreadyCompletedMsg : List String)
  | checkDishMode (dishModes_str : List String) (dishMode_final_str attr_name : String)
      (taskAlreadyCompletedMsg : List String)
  | checkTaskRunning (attr_name : String) (throws : Bool)
  | checkPowerStatus (seCtrlPowerStatusStr : String)
  | setProgress (attr_name : String) (msg : List String)
  | call (r : Request)
  | addTaskSequence (hasAttribute : String → Bool) (q : TaskSequencePtr)
      (abortedMsg : Option (String × List String))
  | getStatusInfo (attr_name : String)
  | getStatusAttr (attr_name : String)
  | setStatusAttr (attr_name : String)
  | throwException

/-- What a check makes the command do in place of its remaining actions. A read of an attribute that
fails makes it throw. -/
def Action.instead (attrs : Attrs) (succeeds : Bool) : Action → Option (List Action)
  | .isCmdAllowed allowed => if allowed then none else some [.throwException]
  | .checkHandlerEnabled attr_name =>
      if !succeeds then some [.throwException]
      else if attrs.handlerEnabled attr_name then none
      else some []
  | .checkTaskData none => some [.throwException]
  | .checkTaskData (some isEvent) => if isEvent then none else some []
  | .checkMode mode_str attr_name msg =>
      if !succeeds then some [.throwException]
      else if attrs.dishMode = mode_str then some [.setProgress attr_name msg]
      else none
  | .checkDishMode dishModes_str dishMode_final_str attr_name msg =>
      if !succeeds then some [.throwException]
      else if !dishModes_str.contains attrs.dishMode then some []
      else if attrs.dishMode = dishMode_final_str then some [.setProgress attr_name msg]
      else none
  | .checkTaskRunning attr_name throws =>
      if !succeeds || (attrs.progress attr_name).length < 2 then some [.throwException]
      else if isTaskRunning (attrs.progress attr_name) then
        some (if throws then [.throwException] else [])
      else none
  | .checkPowerStatus seCtrlPowerStatusStr =>
      if !succeeds then some [.throwException]
      else if attrs.seCtrlPowerStatus = seCtrlPowerStatusStr then some []
      else none
  | _ => none

/-- A thread: what is left of its command, and the local variables of `UpdateStatusAttrs`. There is
no `info` when the command goes on to the next attribute. -/
structure Thread where
  rest : List Action
  info : Option TaskInfo
  attr_values : List String
  thrown : Bool

def Thread.initial : Thread where
  rest := []
  info := none
  attr_values := []
  thrown := false

end DishManager

open DishManager

/-- The order of times. It is given here so that the most recent sequence can be computed. -/
local instance timeOrder : Preorder Time := Int.instLinearOrder.toPreorder

structure DishManager (ι : Type) where
  system : System
  attrs : Attrs
  threads : ι → Thread

namespace DishManager

variable {ι : Type} [DecidableEq ι] (S : SetImpl TaskPtr)

def setThread (t : ι) (thread : Thread) (d : DishManager ι) : DishManager ι :=
  { d with threads := Function.update d.threads t thread }

def goOn (t : ι) (rest : List Action) (d : DishManager ι) : DishManager ι :=
  d.setThread t { d.threads t with rest := rest }

def request (r : Request) (d : DishManager ι) : DishManager ι :=
  { d with system := d.system.request S r }

def setProgress (outcome : WriteOutcome) (attr_name : String) (value : List String)
    (d : DishManager ι) : DishManager ι :=
  { d with attrs := d.attrs.setProgress outcome attr_name value }

/-- A command that cannot add its sequence throws. One of them reports that first. -/
def afterAddTaskSequence (code : Int) (abortedMsg : Option (String × List String))
    (rest : List Action) : List Action :=
  if code < 0 then
    (abortedMsg.toList.map fun msg => .setProgress msg.1 msg.2) ++ [.throwException]
  else rest

/-- The most recent of the sequences that report in the attribute, the first of several. -/
def mostRecentInfo (m : TaskManager) (attr_name : String) : Option TaskInfo :=
  (m.getTaskSequenceStatusInfo true attr_name).argmax TaskInfo.creationTimestamp

/-- The value that `UpdateStatusAttrs` writes: what it has read, with the new status. -/
def statusValue (info : TaskInfo) (attr_values : List String) : List String :=
  (attr_values.set 0 (TaskManager.getTaskStatusString info.status)).set 1 info.statusInfo

def perform (t : ι) (outcome : WriteOutcome) (rest : List Action) (d : DishManager ι) :
    Action → DishManager ι
  | .setProgress attr_name msg =>
      (d.setProgress outcome attr_name msg).goOn t
        (if outcome = .succeeds then rest else [.throwException])
  | .call r => (d.request S r).goOn t rest
  | .addTaskSequence hasAttribute q abortedMsg =>
      let r := Request.addTaskSequence hasAttribute (some q) true
      (d.request S r).goOn t
        (afterAddTaskSequence (d.system.manager.call S r d.system.signals).1 abortedMsg rest)
  | .getStatusInfo attr_name =>
      d.setThread t
        { d.threads t with rest := rest, info := mostRecentInfo d.system.manager attr_name }
  | .getStatusAttr attr_name =>
      d.setThread t
        { d.threads t with
          rest := rest
          info := if outcome = .succeeds then (d.threads t).info else none
          attr_values := d.attrs.progress attr_name }
  | .setStatusAttr attr_name =>
      match (d.threads t).info with
      | none => d.goOn t rest
      | some info =>
          (d.setProgress outcome attr_name (statusValue info (d.threads t).attr_values)).goOn t rest
  | .throwException => d.setThread t { d.threads t with rest := [], thrown := true }
  | check => d.goOn t ((check.instead d.attrs (outcome = .succeeds)).getD rest)

/-- The properties of the device, and the attributes that it has. -/
structure Properties where
  hasAttribute : String → Bool
  taskSequenceStatusAttrList : List String
  taskHistoryTimeDepth : Int
  defaultTaskTimeout : Int
  shutdownTaskTimeout : Int
  rxShutdownTimeDelay : Int

variable (props : Properties)

def set_stow_mode (allowed : Bool) (q : TaskSequencePtr) : List Action :=
  let taskSequence_progress_attr_name := "setStowModeProgress"
  [.isCmdAllowed allowed,
    .checkTaskRunning taskSequence_progress_attr_name true,
    .checkMode "STOW" taskSequence_progress_attr_name ["COMPLETED", "Dish is already in STOW mode"],
    .addTaskSequence props.hasAttribute q none,
    .setProgress taskSequence_progress_attr_name ["IDLE", "Set dish to STOW mode scheduled"]]

/-- `argin` is the mode of the dish structure, in which 4 is the emergency stop. -/
def handle_estop_event (argin : Option Int16) (q : TaskSequencePtr) : List Action :=
  let dsMode_estop : Int16 := 4
  let taskSequence_progress_attr_name := "setStandbyFPOnESTOPProgress"
  [.checkHandlerEnabled "enableESTOPEventHandler",
    .checkTaskData (argin.map (· == dsMode_estop)),
    .checkDishMode ["CONFIG", "OPERATE"] "STANDBY-FP" taskSequence_progress_attr_name
      ["COMPLETED", "Dish is already in STANDBY-FP mode"],
    .checkTaskRunning taskSequence_progress_attr_name false,
    .call .flushQueue,
    .addTaskSequence props.hasAttribute q none,
    .setProgress taskSequence_progress_attr_name
      ["IDLE", "Set dish to STANDBY-FP mode on ESTOP scheduled"]]

def handle_power_cut_event (argin : Option Bool) (q : TaskSequencePtr) : List Action :=
  let taskSequence_progress_attr_name := "shutdownOnPowerCutProgress"
  [.checkHandlerEnabled "enablePowerCutEventHandler",
    .checkTaskData argin,
    .checkTaskRunning taskSequence_progress_attr_name false,
    .checkPowerStatus "OFF",
    .setProgress taskSequence_progress_attr_name
      ["INIT", "Dish shutdown on power cut initialized"],
    .call .flushQueue,
    .addTaskSequence props.hasAttribute q
      (some (taskSequence_progress_attr_name, ["ABORTED", "Dish shutdown on power cut aborted"])),
    .setProgress taskSequence_progress_attr_name
      ["IDLE", "Dish shutdown on power cut scheduled"]]

def revokedTask_names : List String :=
  ["ShutdownRXPUTask", "PowerOffRXPUTask", "ShutdownSPFCTask", "PowerOffSPFCTask"]

def handle_power_restore_event (argin : Option Bool) (q : TaskSequencePtr) : List Action :=
  let taskSequence_progress_attr_name := "startupOnPowerRestoreProgress"
  [.checkHandlerEnabled "enablePowerRestoreEventHandler",
    .checkTaskData argin,
    .checkTaskRunning taskSequence_progress_attr_name false,
    .checkPowerStatus "ON"] ++
  (revokedTask_names.map fun name => .call (.revokeTask name)) ++
  [.addTaskSequence props.hasAttribute q none,
    .setProgress taskSequence_progress_attr_name
      ["IDLE", "Dish startup on power restore scheduled"]]

def update_status_attrs : List Action :=
  props.taskSequenceStatusAttrList.flatMap fun attr_name =>
    [.getStatusInfo attr_name, .getStatusAttr attr_name, .setStatusAttr attr_name]

def flush_task_queue : List Action := [.call .flushQueue]

def clear_tasks (now : Clock) : List Action :=
  [.call (.clearSequenceTasks now props.taskHistoryTimeDepth true false)]

def revoke_task (name : String) : List Action :=
  if name = "" then [.throwException] else [.call (.revokeTask name)]

/-- The commands, with their arguments and the sequence that each one prepares. -/
inductive Command where
  | setStowMode (allowed : Bool) (q : TaskSequencePtr)
  | handleESTOPEvent (argin : Option Int16) (q : TaskSequencePtr)
  | handlePowerCutEvent (argin : Option Bool) (q : TaskSequencePtr)
  | handlePowerRestoreEvent (argin : Option Bool) (q : TaskSequencePtr)
  | updateStatusAttrs
  | flushTaskQueue
  | clearTasks (now : Clock)
  | revokeTask (name : String)

def Command.actions : Command → List Action
  | .setStowMode allowed q => set_stow_mode props allowed q
  | .handleESTOPEvent argin q => handle_estop_event props argin q
  | .handlePowerCutEvent argin q => handle_power_cut_event props argin q
  | .handlePowerRestoreEvent argin q => handle_power_restore_event props argin q
  | .updateStatusAttrs => update_status_attrs props
  | .flushTaskQueue => flush_task_queue
  | .clearTasks now => clear_tasks props now
  | .revokeTask name => revoke_task name

/-- A task as a command makes it: with a delay `SetTimeDelayAndDuration` sets its times, without one
`SetMaxDuration`. -/
structure PreparedTask where
  task_name : String
  delay_time : Option Int := none
  max_duration : Int
  progress_attr_name : Option String := none

def PreparedTask.make (now : Clock) (uuid : String) (priority : Int) (prepared : PreparedTask) :
    Task :=
  let t := Task.create now uuid prepared.task_name priority false
  let t :=
    match prepared.delay_time with
    | none => (t.setMaxDuration now prepared.max_duration 0 0).2
    | some delay_time => (t.setTimeDelayAndDuration now delay_time prepared.max_duration 0 0).2
  match prepared.progress_attr_name with
  | none => t
  | some attr_name => t.setAsynchTask attr_name

/-- A sequence as a command makes it. `SetTaskDependency` is called when there is a matrix. -/
structure PreparedSequence where
  taskSequence_name : String
  taskSequence_progress_attr_name : String
  priority : Int
  tasks : List PreparedTask
  task_dependency_matrix : Option (List (List Nat)) := none

def stowSequence : PreparedSequence where
  taskSequence_name := "SetStowMode"
  taskSequence_progress_attr_name := "setStowModeProgress"
  priority := 1
  tasks := [
    { task_name := "SetRxStandbyLPModeTask", max_duration := props.defaultTaskTimeout * 1000 },
    { task_name := "SetDSStowModeTask"
      max_duration := props.defaultTaskTimeout * 1000
      progress_attr_name := some "dsStowProgress" },
    { task_name := "SetSPFStandbyLPModeTask"
      max_duration := props.defaultTaskTimeout * 1000
      progress_attr_name := some "spfSetStandbyLPModeProgress" }]

def estopSequence : PreparedSequence where
  taskSequence_name := "HandleESTOPEvent"
  taskSequence_progress_attr_name := "setStandbyFPOnESTOPProgress"
  priority := 2
  tasks := [
    { task_name := "SetSPFOperateModeTask"
      max_duration := props.defaultTaskTimeout * 1000
      progress_attr_name := some "spfSetOperateModeProgress" },
    { task_name := "SetRxStandbyFPModeTask", max_duration := props.defaultTaskTimeout * 1000 }]

def powerCutSequence : PreparedSequence where
  taskSequence_name := "ShutdownOnPowerCut"
  taskSequence_progress_attr_name := "shutdownOnPowerCutProgress"
  priority := 2
  tasks := [
    { task_name := "SetRxStandbyLPModeTask"
      delay_time := some (props.rxShutdownTimeDelay * 1000)
      max_duration := props.shutdownTaskTimeout * 1000 },
    { task_name := "ShutdownRXPUTask", max_duration := props.shutdownTaskTimeout * 1000 },
    { task_name := "PowerOffRXPUTask"
      delay_time := some 5000
      max_duration := props.shutdownTaskTimeout * 1000 },
    { task_name := "SetSPFStandbyLPModeTask"
      max_duration := props.shutdownTaskTimeout * 1000
      progress_attr_name := some "spfSetStandbyLPModeProgress" },
    { task_name := "ShutdownSPFCTask", max_duration := props.shutdownTaskTimeout * 1000 },
    { task_name := "PowerOffSPFCTask"
      delay_time := some 5000
      max_duration := props.shutdownTaskTimeout * 1000 }]
  task_dependency_matrix := some [[], [0], [1], [], [3], [4]]

def powerRestoreSequence : PreparedSequence where
  taskSequence_name := "StartupOnPowerRestore"
  taskSequence_progress_attr_name := "startupOnPowerRestoreProgress"
  priority := 2
  tasks := [
    { task_name := "PowerOnRXPUTask", max_duration := props.defaultTaskTimeout * 1000 },
    { task_name := "PowerOnSPFCTask", max_duration := props.defaultTaskTimeout * 1000 }]

/-- The sequence and its tasks, with their identifiers from `GenerateUUID`. -/
def PreparedSequence.build (now : Clock) (uuid : Nat → String) (q : TaskSequencePtr)
    (ptr : Nat → TaskPtr) (prepared : PreparedSequence) (h : Heap) : Heap :=
  let seq := TaskSequence.create now (uuid prepared.tasks.length) prepared.taskSequence_name false
  let seq := (seq.setDevStatusAttr props.hasAttribute
    prepared.taskSequence_progress_attr_name).2
  h.buildSequence q seq (prepared.tasks.mapIdx fun i task =>
    (ptr i, task.make now (uuid i) prepared.priority))

/-- What a command makes: the sequence, and then the dependencies of its tasks. -/
def PreparedSequence.prepare (now : Clock) (uuid : Nat → String) (q : TaskSequencePtr)
    (ptr : Nat → TaskPtr) (prepared : PreparedSequence) (h : Heap) : Except Fault (Int × Heap) :=
  let h := prepared.build props now uuid q ptr h
  match prepared.task_dependency_matrix with
  | none => .ok (0, h)
  | some matrix => h.setTaskDependency now q matrix

/-- The attributes that the commands only read are written elsewhere. -/
inductive Input (ι : Type) where
  | start (t : ι) (c : Command)
  | act (t : ι) (outcome : WriteOutcome)
  | event (e : Event)
  | setDishMode (label : String)
  | setSeCtrlPowerStatus (label : String)
  | setHandlerEnabled (attr_name : String) (enabled : Bool)

/-- A thread starts a command when it has finished the one before. -/
def start (t : ι) (c : Command) (d : DishManager ι) : DishManager ι :=
  if (d.threads t).rest.isEmpty then
    d.setThread t { Thread.initial with rest := c.actions props }
  else d

def act (t : ι) (outcome : WriteOutcome) (d : DishManager ι) : DishManager ι :=
  match (d.threads t).rest with
  | [] => d
  | a :: rest => d.perform S t outcome rest a

def step (d : DishManager ι) : Input ι → DishManager ι
  | .start t c => d.start props t c
  | .act t outcome => d.act S t outcome
  | .event e => { d with system := d.system.step S e }
  | .setDishMode label => { d with attrs := { d.attrs with dishMode := label } }
  | .setSeCtrlPowerStatus label => { d with attrs := { d.attrs with seCtrlPowerStatus := label } }
  | .setHandlerEnabled attr_name enabled =>
      { d with
        attrs := { d.attrs with
          handlerEnabled := Function.update d.attrs.handlerEnabled attr_name enabled } }

/-- The device after its initialization, around the objects that its commands make. -/
def initial (h : Heap) (devName : String) (attrs : Attrs) : DishManager ι where
  system := System.create h devName
  attrs := attrs
  threads _ := Thread.initial

end DishManager

end DshLmc
