import DshLmc.Utils.CompareTask
import DshLmc.Utils.TaskSequence

/-!
# The task manager

A `TaskManager` keeps a queue of tasks, ordered by `CompareTask`, and a collection of task
sequences. The two share their tasks. Each method below is one critical section of the manager's
mutex. The flags that wake up and end the worker are static members in the source, so they are not
part of a manager: the methods that touch them take and return `Signals`.
-/

namespace DshLmc

/-- The static members `m_wakeUpSignal` and `m_endSignal`. -/
structure Signals where
  wakeUpSignal : Bool
  endSignal : Bool
deriving DecidableEq

/-- `CompareTask` on pointers. -/
def Heap.less (h : Heap) (p p' : TaskPtr) : Bool := compareTask (h.task p) (h.task p')

/-- What a manager has of its own: pointers and limits. -/
structure Containers where
  devName : String
  taskQueue : List TaskPtr
  taskSequences : List TaskSequencePtr
  maxTasksInQueue : Int
  maxTasksInCollection : Int

/-- A manager and the objects behind its pointers. -/
structure TaskManager extends Heap, Containers

structure TaskInfo where
  taskName : String
  status : TaskStatus
  statusInfo : String
  creationTimestamp : Time

def matchTaskByName (name : String) (t : Task) : Bool := t.cmdName == name

def matchTaskBySequenceName (name : String) (t : Task) : Bool :=
  t.isInSequence && t.sequenceName == name

def matchTaskByStatus (status : TaskStatus) (t : Task) : Bool := t.status == status

def matchTaskSequenceByName (name : String) (seq : TaskSequence) : Bool := seq.seqName == name

def matchTaskSequenceByIdAndName (id name : String) (seq : TaskSequence) : Bool :=
  seq.seqName == name && seq.seqId == id

def matchTaskSequenceByDevAttrName (attrName : String) (seq : TaskSequence) : Bool :=
  seq.hasDeviceStatusAttr && seq.statusAttrName == attrName

/-- `MatchOldSequenceTask`. No filter status stands for the `-1` of the source. -/
def matchOldSequenceTask (filterStatus : Option TaskStatus) (currentTime : Time)
    (historyTimeThr : Int) (invertFilter : Bool) (seq : TaskSequence) : Bool :=
  let isOldTask := decide (historyTimeThr * 1000000 ≤ currentTime - seq.creationTime)
  let isSelectedTask :=
    match filterStatus with
    | none => true
    | some status =>
        (!invertFilter && seq.status == status) || (invertFilter && seq.status != status)
  isOldTask && isSelectedTask

namespace TaskManager

def create (h : Heap) (devName : String) : TaskManager where
  toHeap := h
  devName := devName
  taskQueue := []
  taskSequences := []
  maxTasksInQueue := 30
  maxTasksInCollection := 1000

/-- What the constructor leaves in the static members. -/
def createSignals : Signals := { wakeUpSignal := false, endSignal := false }

/-- Changes the objects and neither container. -/
def onHeap (change : Heap → Heap) (m : TaskManager) : TaskManager :=
  { m with toHeap := change m.toHeap }

/-- Erases the matching tasks from the queue. -/
def removeInQueue (found : Task → Bool) (m : TaskManager) : TaskManager :=
  { m with taskQueue := m.taskQueue.filter fun p => !found (m.task p) }

/-- Erases the matching sequences from the collection. -/
def removeSequences (found : TaskSequence → Bool) (m : TaskManager) : TaskManager :=
  { m with taskSequences := m.taskSequences.filter fun q => !found (m.sequence q) }

variable (S : SetImpl TaskPtr)

/-- One task of a new sequence: into the queue, and `IDLE`. -/
def enqueue (p : TaskPtr) (m : TaskManager) : TaskManager :=
  { m with
    taskQueue := S.insert m.less p m.taskQueue
    toHeap := m.updateTask p fun t => { t with status := .idle } }

/-- The loop of `AddTaskSequence` over the tasks. It stops at an asynchronous task whose status
attribute the device lacks. -/
def enqueueAll (hasAttribute : String → Bool) : List TaskPtr → TaskManager → Bool × TaskManager
  | [], m => (true, m)
  | p :: rest, m =>
      if (m.task p).isAsynch && !hasAttribute (m.task p).statusAttrName then (false, m)
      else enqueueAll hasAttribute rest (m.enqueue S p)

def addTaskSequence (hasAttribute : String → Bool) (taskSequence : Option TaskSequencePtr)
    (addToQueue : Bool) (signals : Signals) (m : TaskManager) : Int × Signals × TaskManager :=
  match taskSequence with
  | none => (-1, signals, m)
  | some q =>
      let tasks := (m.sequence q).tasks
      if tasks.length ≤ 0 then (-1, signals, m)
      else if (m.taskQueue.length + tasks.length : Int) > m.maxTasksInQueue then (-1, signals, m)
      else
        match if addToQueue then m.enqueueAll S hasAttribute tasks else (true, m) with
        | (false, m) => (-1, signals, m)
        | (true, m) =>
            (0, { signals with wakeUpSignal := true },
              { m with taskSequences := m.taskSequences ++ [q] })

def removeTaskSequence (name : String) (m : TaskManager) : Int × TaskManager :=
  (0, (m.removeInQueue (matchTaskBySequenceName name)).removeSequences
    (matchTaskSequenceByName name))

/-- Cancels the selected `IDLE` tasks of a list, and says whether there were any. -/
def cancelTasks (selected : Task → Bool) : List TaskPtr → Heap → Bool × Heap
  | [], h => (false, h)
  | p :: rest, h =>
      if (h.task p).status ≠ .idle ∨ selected (h.task p) = false then cancelTasks selected rest h
      else (true, (cancelTasks selected rest (h.setStatus p .canceled "Task was canceled")).2)

/-- Cancels the selected `IDLE` tasks of a sequence and refreshes its status. -/
def cancelInSequence (selected : Task → Bool) (h : Heap) (q : TaskSequencePtr) : Heap :=
  match cancelTasks selected (h.sequence q).tasks h with
  | (true, h) => h.computeStatus q
  | (false, h) => h

def revokeSequenceTasks (name : String) (m : TaskManager) : TaskManager :=
  m.onHeap fun h => m.taskSequences.foldl
    (fun h q => if (h.sequence q).seqName ≠ name then h else cancelInSequence (fun _ => true) h q) h

def revokeTasks (name : String) (m : TaskManager) : TaskManager :=
  m.onHeap fun h => m.taskSequences.foldl (cancelInSequence (matchTaskByName name)) h

def revokeTaskSequence (name : String) (m : TaskManager) : Int × TaskManager :=
  (0, (m.removeInQueue (matchTaskBySequenceName name)).revokeSequenceTasks name)

def revokeTask (name : String) (m : TaskManager) : Int × TaskManager :=
  (0, (m.removeInQueue (matchTaskByName name)).revokeTasks name)

def flushQueue (m : TaskManager) : Int × TaskManager := (0, { m with taskQueue := [] })

def clearAllSequenceTasks (m : TaskManager) : Int × TaskManager :=
  (0, { m with taskSequences := [] })

def clearSequenceTasks (now : Clock) (historyTimeThr : Int) (keepRunningTasks useUTC : Bool)
    (m : TaskManager) : Int × TaskManager :=
  if keepRunningTasks then
    (0, m.removeSequences
      (matchOldSequenceTask (some .running) (now.current useUTC) historyTimeThr true))
  else
    (0, m.removeSequences (matchOldSequenceTask none (now.current useUTC) historyTimeThr false))

def clearCompletedSequenceTasks (now : Clock) (historyTimeThr : Int) (useUTC : Bool)
    (m : TaskManager) : Int × TaskManager :=
  (0, m.removeSequences
    (matchOldSequenceTask (some .completed) (now.current useUTC) historyTimeThr true))

/-- The body of the loop of `set_sequence_task_status`. -/
def setStatusInSequence (id name : String) (status : TaskStatus) (info : String) (h : Heap)
    (q : TaskSequencePtr) : Heap :=
  match h.findTask q id name with
  | none => h
  | some p =>
      if (h.task p).isInSequence then (h.setStatus p status info).computeStatus q
      else h.setStatus p status info

def setSequenceTaskStatus (id name : String) (status : TaskStatus) (info : String)
    (m : TaskManager) : Int × TaskManager :=
  let isFound := m.taskSequences.any fun q => (m.findTask q id name).isSome
  (if isFound then 0 else -1,
    m.onHeap fun h => m.taskSequences.foldl (setStatusInSequence id name status info) h)

def setAsynchTaskStatus (attrName : String) (status : TaskStatus) (info : String)
    (m : TaskManager) : Int × TaskManager :=
  (0, m.onHeap fun h =>
    m.taskSequences.foldl (Heap.setAsynchTaskStatus attrName status info) h)

def findTaskSequence (m : TaskManager) (seqId seqName : String) : Option TaskSequencePtr :=
  m.taskSequences.find? fun q => matchTaskSequenceByIdAndName seqId seqName (m.sequence q)

/-- One entry of the dependency list of a task: a valid index of a completed task. -/
def isDependencyCompleted (m : TaskManager) (q : TaskSequencePtr) (index : Int) : Bool :=
  if index < 0 then false
  else
    match (m.sequence q).tasks[index.toNat]? with
    | none => false
    | some p => (m.task p).status == .completed

def isSequenceTaskRunnable (m : TaskManager) (p : TaskPtr) : Bool :=
  let task := m.task p
  if !task.isInSequence then true
  else if !task.dependOnSequenceTasks || task.depTaskSeqIndexes.isEmpty then true
  else
    match m.findTaskSequence task.sequenceId task.sequenceName with
    | none => false
    | some q => task.depTaskSeqIndexes.all (m.isDependencyCompleted q)

/-- The test of the loop of `PopTask`. -/
def isRunnable (now : Clock) (m : TaskManager) (p : TaskPtr) : Bool :=
  (m.task p).isRunnable now && m.isSequenceTaskRunnable p

/-- Marks a task found timed out while the queue is processed. -/
def expire (p : TaskPtr) (m : TaskManager) : TaskManager :=
  m.onHeap (Heap.setStatus p .expired "Task is found timed-out while processing the queue")

/-- What the loop of `PopTask` over the queue found: a runnable task, and before it the first task
that is waiting for its activation. -/
structure Scan where
  runnable : Option TaskPtr
  waiting : Option TaskPtr
  manager : TaskManager

/-- The loop of `PopTask` over the queue. -/
def scanQueue (now : Clock) : List TaskPtr → Option TaskPtr → TaskManager → Scan
  | [], waiting, m => { runnable := none, waiting := waiting, manager := m }
  | p :: rest, waiting, m =>
      if m.isRunnable now p then { runnable := some p, waiting := waiting, manager := m }
      else if (m.task p).isExpirationReached now then scanQueue now rest waiting (m.expire p)
      else if (m.task p).isWaitingForActivation now && waiting.isNone then
        scanQueue now rest (some p) m
      else scanQueue now rest waiting m

/-- How a call of `PopTask` goes on: it is blocked in its first wait, it has returned -1, it sleeps
until a task may start, or it has returned 0 with a copy of the task. -/
inductive PopOutcome where
  | waiting
  | failed
  | sleeping (timeToExpiration : Int)
  | popped (task : Task)

/-- The remaining time of an activation timeout, in microseconds. -/
def timeToActivation (now : Clock) (m : TaskManager) (p : TaskPtr) : Int :=
  match (m.task p).activationTimeout with
  | none => 0
  | some timeout => timeout.start + timeout.delay * 1000 - now.utc

/-- `TaskManager::PopTask` up to its second wait. -/
def popTask (now : Clock) (signals : Signals) (m : TaskManager) :
    PopOutcome × Signals × TaskManager :=
  if !(!m.taskQueue.isEmpty || signals.wakeUpSignal || signals.endSignal) then
    (.waiting, signals, m)
  else
    let signals := { signals with wakeUpSignal := false }
    if signals.endSignal then (.failed, signals, m)
    else if m.taskQueue.isEmpty then (.failed, signals, m)
    else
      let m := m.removeInQueue (matchTaskByStatus .expired)
      let scan := scanQueue now m.taskQueue none m
      match scan.runnable, scan.waiting with
      | some p, _ =>
          (.popped (scan.manager.task p), signals,
            { scan.manager with taskQueue := scan.manager.taskQueue.erase p })
      | none, some p => (.sleeping (scan.manager.timeToActivation now p), signals, scan.manager)
      | none, none => (.failed, signals, scan.manager)

/-- The second wait of `PopTask`, looked at when it is notified or times out. The call returns -1
or keeps sleeping. -/
def popTaskAwake (timedOut : Bool) (signals : Signals) : Bool × Signals :=
  if signals.wakeUpSignal || signals.endSignal then
    (true, { signals with wakeUpSignal := false })
  else (timedOut, signals)

/-- How the command handler of a task ended. -/
inductive RunOutcome where
  | done
  | devFailed (reason : String)
  | exception
deriving DecidableEq

/-- The status and the text `ExecuteTask` writes after the handler. -/
def executedStatus (devName : String) (task : Task) : RunOutcome → TaskStatus × String
  | .devFailed reason =>
      (.failed, "Tango exception occurred while executing " ++ task.cmdName ++ " on device "
        ++ devName ++ " (reason=" ++ reason ++ ")!")
  | .exception =>
      (.failed, "Unknown exception occurred while executing " ++ task.cmdName ++ " on device "
        ++ devName ++ "!")
  | .done =>
      if task.isAsynch then
        (.running, "Task " ++ task.cmdName ++ " commanded in device " ++ devName
          ++ " started with success")
      else
        (.completed, "Task " ++ task.cmdName ++ " commanded in device " ++ devName
          ++ " completed with success")

/-- The part of `TaskManager::ExecuteTask` after the handler: one call of
`SetSequenceTaskStatus`, whose failure is only logged. -/
def reportTask (task : Task) (outcome : RunOutcome) (m : TaskManager) : TaskManager :=
  let (status, info) := executedStatus m.devName task outcome
  (m.setSequenceTaskStatus task.id task.cmdName status info).2

def getTaskSequenceStatusInfo (useDevAttrFilter : Bool) (devAttrName : String)
    (m : TaskManager) : List TaskInfo :=
  (m.taskSequences.filter fun q =>
    !useDevAttrFilter || matchTaskSequenceByDevAttrName devAttrName (m.sequence q)).map fun q =>
      let seq := m.sequence q
      { taskName := seq.seqName
        status := seq.status
        statusInfo := seq.statusInfo
        creationTimestamp := seq.creationTime }

end TaskManager

end DshLmc
