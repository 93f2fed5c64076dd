import DshLmc.Library.Run
import DshLmc.Core.TaskThread

/-!
# Several managers in one process

Every manager has its own queue, collection and limits. Two things they have in common. The flags
`m_wakeUpSignal` and `m_endSignal` are static members of the class, and the constructor of each
manager resets them. The tasks and the sequences are behind shared pointers: a client may hand the
same sequence to two managers, and what one of them writes to its tasks the other one reads.
-/

namespace DshLmc

/-- An operation on one manager. `PopTask` is split at its waits, as in `System`. -/
inductive Operation where
  | construct (devName : String)
  | call (r : Request)
  | popTask (now : Clock)
  | awake (timedOut : Bool)
  | getTaskSequenceStatusInfo (useDevAttrFilter : Bool) (devAttrName : String)

/-- What an operation returns. For `awake` it is whether the call has returned or sleeps on. -/
inductive OperationResult where
  | constructed
  | code (code : Int)
  | popped (outcome : TaskManager.PopOutcome)
  | awake (returned : Bool)
  | taskInfos (infos : List TaskInfo)

/-- The objects that clients hand to the managers, the static members, and the managers. -/
structure Process (ω : Type) where
  heap : Heap
  signals : Signals
  containers : ω → Containers

variable (S : SetImpl TaskPtr)

/-- One operation, on a manager and the static members. -/
def TaskManager.operate (operation : Operation) (signals : Signals) (m : TaskManager) :
    OperationResult × Signals × TaskManager :=
  match operation with
  | .construct devName => (.constructed, TaskManager.createSignals, TaskManager.create m.toHeap devName)
  | .call r =>
      let (code, signals, m) := m.call S r signals
      (.code code, signals, m)
  | .popTask now =>
      let (outcome, signals, m) := m.popTask now signals
      (.popped outcome, signals, m)
  | .awake timedOut =>
      let (returned, signals) := TaskManager.popTaskAwake timedOut signals
      (.awake returned, signals, m)
  | .getTaskSequenceStatusInfo useDevAttrFilter devAttrName =>
      (.taskInfos (m.getTaskSequenceStatusInfo useDevAttrFilter devAttrName), signals, m)

namespace Process

variable {ω : Type}

/-- A manager as its methods see it. -/
def manager (p : Process ω) (owner : ω) : TaskManager where
  toHeap := p.heap
  toContainers := p.containers owner

def result (p : Process ω) (input : ω × Operation) : OperationResult :=
  ((p.manager input.1).operate S input.2 p.signals).1

def step [DecidableEq ω] (p : Process ω) (input : ω × Operation) : Process ω :=
  let (_, signals, m) := (p.manager input.1).operate S input.2 p.signals
  { heap := m.toHeap
    signals := signals
    containers := Function.update p.containers input.1 m.toContainers }

end Process

end DshLmc
