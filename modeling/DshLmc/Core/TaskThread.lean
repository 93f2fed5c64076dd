import DshLmc.Library.Run
import DshLmc.Utils.TaskManager

/-!
# The worker and the threads around it

`TaskThread::Run` pops a task, runs its command handler and writes the status, in three separate
steps. Between any two of them other threads may call the methods of the manager, each call being
one critical section of its mutex. A `System` is the state all of them see, and `System.step` is
one step of any of them.
-/

namespace DshLmc

/-- Where the worker is: about to call `PopTask`, asleep in its second wait, or holding the copy of
the task it popped, before or after the command handler. -/
inductive Worker where
  | ready
  | sleeping
  | popped (task : Task)
  | handled (task : Task) (outcome : TaskManager.RunOutcome)

/-- The task popped and not yet reported. -/
def Worker.held : Worker → Option Task
  | .ready => none
  | .sleeping => none
  | .popped task => some task
  | .handled task _ => some task

structure System where
  manager : TaskManager
  signals : Signals
  worker : Worker

/-- A call of a method of the manager. What a call reads from its surroundings, the clock or the
attributes of the device, is an argument. -/
inductive Request where
  | wakeUp
  | endThread
  | addTaskSequence (hasAttribute : String → Bool) (taskSequence : Option TaskSequencePtr)
      (addToQueue : Bool)
  | removeTaskSequence (name : String)
  | revokeTaskSequence (name : String)
  | revokeTask (name : String)
  | flushQueue
  | setSequenceTaskStatus (id name : String) (status : TaskStatus) (info : String)
  | setAsynchTaskStatus (attrName : String) (status : TaskStatus) (info : String)
  | clearAllSequenceTasks
  | clearSequenceTasks (now : Clock) (historyTimeThr : Int) (keepRunningTasks useUTC : Bool)
  | clearCompletedSequenceTasks (now : Clock) (historyTimeThr : Int) (useUTC : Bool)
  | setMaxNTasksInQueue (val : Int)
  | setMaxNTasksInCollection (val : Int)

/-- A step of the worker. -/
inductive WorkerStep where
  | popTask (now : Clock)
  | awake (timedOut : Bool)
  | runTask (outcome : TaskManager.RunOutcome)
  | reportTask

inductive Event where
  | request (r : Request)
  | worker (w : WorkerStep)

/-- A call on the manager and the static signals. The code is 0 where the source returns nothing. -/
def TaskManager.call (S : SetImpl TaskPtr) (r : Request) (signals : Signals) (m : TaskManager) :
    Int × Signals × TaskManager :=
  let plain (result : Int × TaskManager) : Int × Signals × TaskManager :=
    (result.1, signals, result.2)
  match r with
  | .wakeUp => (0, { signals with wakeUpSignal := true }, m)
  | .endThread => (0, { signals with endSignal := true }, m)
  | .addTaskSequence hasAttribute taskSequence addToQueue =>
      m.addTaskSequence S hasAttribute taskSequence addToQueue signals
  | .removeTaskSequence name => plain (m.removeTaskSequence name)
  | .revokeTaskSequence name => plain (m.revokeTaskSequence name)
  | .revokeTask name => plain (m.revokeTask name)
  | .flushQueue => plain m.flushQueue
  | .setSequenceTaskStatus id name status info =>
      plain (m.setSequenceTaskStatus id name status info)
  | .setAsynchTaskStatus attrName status info => plain (m.setAsynchTaskStatus attrName status info)
  | .clearAllSequenceTasks => plain m.clearAllSequenceTasks
  | .clearSequenceTasks now historyTimeThr keepRunningTasks useUTC =>
      plain (m.clearSequenceTasks now historyTimeThr keepRunningTasks useUTC)
  | .clearCompletedSequenceTasks now historyTimeThr useUTC =>
      plain (m.clearCompletedSequenceTasks now historyTimeThr useUTC)
  | .setMaxNTasksInQueue val => (0, signals, { m with maxTasksInQueue := val })
  | .setMaxNTasksInCollection val => (0, signals, { m with maxTasksInCollection := val })

namespace System

/-- The manager after its constructor, around the objects clients hand to it. -/
def create (h : Heap) (devName : String) : System where
  manager := TaskManager.create h devName
  signals := TaskManager.createSignals
  worker := .ready

variable (S : SetImpl TaskPtr)

/-- A call by a thread other than the worker. -/
def request (r : Request) (s : System) : System :=
  let (_, signals, manager) := s.manager.call S r s.signals
  { s with signals := signals, manager := manager }

/-- One step of the worker. A step it is not about to take changes nothing. -/
def workerStep (s : System) : WorkerStep → System
  | .popTask now =>
      match s.worker with
      | .ready =>
          let (outcome, signals, manager) := s.manager.popTask now s.signals
          { manager := manager
            signals := signals
            worker :=
              match outcome with
              | .waiting => .ready
              | .failed => .ready
              | .sleeping _ => .sleeping
              | .popped task => .popped task }
      | _ => s
  | .awake timedOut =>
      match s.worker with
      | .sleeping =>
          let (returned, signals) := TaskManager.popTaskAwake timedOut s.signals
          { s with signals := signals, worker := if returned then .ready else .sleeping }
      | _ => s
  | .runTask outcome =>
      match s.worker with
      | .popped task => { s with worker := .handled task outcome }
      | _ => s
  | .reportTask =>
      match s.worker with
      | .handled task outcome =>
          { s with manager := s.manager.reportTask task outcome, worker := .ready }
      | _ => s

def step (s : System) : Event → System
  | .request r => s.request S r
  | .worker w => s.workerStep w

end System

end DshLmc
