import Mathlib.Logic.Function.Basic
import DshLmc.Utils.Task

/-!
# Task sequences

Tasks and sequences are shared objects: the queue of a manager and the sequences it tracks hold
pointers to the same `Task`. A `Heap` maps pointers to the objects behind them, and a method that
writes through a pointer returns the heap with that object changed.
-/

namespace DshLmc

/-- `TaskPtr`, a shared pointer to a task. -/
abbrev TaskPtr := Nat

/-- `TaskSequencePtr`, a shared pointer to a sequence. -/
abbrev TaskSequencePtr := Nat

structure TaskSequence where
  seqName : String
  seqId : String
  tasks : List TaskPtr
  status : TaskStatus
  statusInfo : String
  dependencyMatrix : List (List Nat)
  useUTC : Bool
  creationTime : Time
  hasDeviceStatusAttr : Bool
  statusAttrName : String

/-- The constructor, the identifier being what `GenerateUUID` drew. -/
def TaskSequence.create (now : Clock) (uuid name : String) (useUTCTime : Bool) : TaskSequence where
  seqName := name
  seqId := uuid
  tasks := []
  status := .init
  statusInfo := ""
  dependencyMatrix := []
  useUTC := useUTCTime
  creationTime := now.current useUTCTime
  hasDeviceStatusAttr := false
  statusAttrName := ""

def TaskSequence.setDevStatusAttr (hasAttribute : String → Bool) (attr_name : String)
    (seq : TaskSequence) : Int × TaskSequence :=
  if attr_name = "" then (-1, seq)
  else if !hasAttribute attr_name then (-1, seq)
  else (0, { seq with hasDeviceStatusAttr := true, statusAttrName := attr_name })

/-- The objects behind the pointers. -/
structure Heap where
  task : TaskPtr → Task
  sequence : TaskSequencePtr → TaskSequence

namespace Heap

def updateTask (p : TaskPtr) (change : Task → Task) (h : Heap) : Heap :=
  { h with task := Function.update h.task p (change (h.task p)) }

def updateSequence (q : TaskSequencePtr) (change : TaskSequence → TaskSequence) (h : Heap) : Heap :=
  { h with sequence := Function.update h.sequence q (change (h.sequence q)) }

/-- `SetStatus` through a pointer. -/
def setStatus (p : TaskPtr) (status : TaskStatus) (info : String) (h : Heap) : Heap :=
  h.updateTask p (Task.setStatus status info)

def tasksOf (h : Heap) (q : TaskSequencePtr) : List Task := (h.sequence q).tasks.map h.task

end Heap

/-- `TaskSequence::ComputeStatus`: the status and its text. Later cases override earlier ones. -/
def summarize (seqName seqId : String) (tasks : List Task) : TaskStatus × String :=
  let named (keep : Task → Bool) : String :=
    "\x7b" ++ String.intercalate ", " ((tasks.filter keep).map Task.cmdName) ++ "\x7d"
  let isFailed (t : Task) : Bool := t.status == .aborted || t.status == .failed
  let isExpired (t : Task) : Bool := t.status == .expired
  let isCanceled (t : Task) : Bool := t.status == .canceled
  let sequence := "sequence " ++ seqName ++ " (id=" ++ seqId ++ ")"
  let oneTaskRunning := tasks.any (·.status == .running)
  let oneTaskFailed := tasks.any isFailed
  let oneTaskTimedOut := tasks.any isExpired
  let oneTaskCanceled := tasks.any isCanceled
  let oneTaskIdle := tasks.any (·.status == .idle)
  let oneTaskCompleted := tasks.any (·.status == .completed)
  let allTaskIdle := tasks.all (·.status == .idle)
  let allTaskCompleted := tasks.all (·.status == .completed)
  let allTaskCanceled := tasks.all isCanceled
  let s : TaskStatus × String := (.unknown, "Cannot determine task sequence status as one/more "
    ++ "task in UNKNOWN state or cannot map global sequence status")
  let s := if allTaskCompleted then
      (.completed, "Task " ++ sequence ++ " completed with success") else s
  let s := if allTaskIdle then (.idle, "All tasks in " ++ sequence ++ " are queued") else s
  let s := if allTaskCanceled then
      (.canceled, "All tasks in " ++ sequence ++ " were cancelled/revoked") else s
  let s := if oneTaskRunning && !oneTaskFailed && !oneTaskTimedOut then
      (.running, "One/more task in " ++ sequence ++ " are running") else s
  let s := if oneTaskCompleted && oneTaskIdle && !oneTaskFailed && !oneTaskTimedOut then
      (.running, "One/more task in " ++ sequence ++ " are running") else s
  let s := if oneTaskFailed then
      (.failed, "One/more tasks " ++ named isFailed ++ " in " ++ sequence
        ++ " failed in execution") else s
  let s := if oneTaskCanceled then
      (.canceled, "One/more tasks " ++ named isCanceled ++ " in " ++ sequence
        ++ " were canceled") else s
  if oneTaskTimedOut && !oneTaskFailed then
    (.expired, "One/more task " ++ named isExpired ++ " in " ++ sequence
      ++ " timed-out before execution")
  else s

namespace Heap

def summary (h : Heap) (q : TaskSequencePtr) : TaskStatus × String :=
  summarize (h.sequence q).seqName (h.sequence q).seqId (h.tasksOf q)

/-- `ComputeStatus` through a pointer. -/
def computeStatus (q : TaskSequencePtr) (h : Heap) : Heap :=
  h.updateSequence q fun seq =>
    { seq with status := (h.summary q).1, statusInfo := (h.summary q).2 }

def findTask (h : Heap) (q : TaskSequencePtr) (id name : String) : Option TaskPtr :=
  (h.sequence q).tasks.find? fun p => (h.task p).id == id && (h.task p).cmdName == name

/-- `MatchAsynchTaskByWatchedAttrName`. -/
def matchAsynchTask (attrName : String) (t : Task) : Bool :=
  t.isAsynch && t.statusAttrName == attrName && t.statusAttrName != ""

/-- `TaskSequence::FindAsynchTaskByWatchedAttrName`. -/
def findAsynchTask (h : Heap) (q : TaskSequencePtr) (attrName : String) : Option TaskPtr :=
  (h.sequence q).tasks.find? fun p => matchAsynchTask attrName (h.task p)

def setAsynchTaskStatus (attrName : String) (status : TaskStatus) (info : String)
    (h : Heap) (q : TaskSequencePtr) : Heap :=
  match h.findAsynchTask q attrName with
  | none => h
  | some p => (h.setStatus p status info).computeStatus q

/-- No object made yet. What the pointers lead to is never looked at. -/
def blank : Heap where
  task _ := Task.create Clock.origin "" "" 0 false
  sequence _ := TaskSequence.create Clock.origin "" "" false

/-- `std::make_shared<Task>`. -/
def makeTask (p : TaskPtr) (task : Task) (h : Heap) : Heap := h.updateTask p fun _ => task

/-- `std::make_shared<TaskSequence>`. -/
def makeSequence (q : TaskSequencePtr) (seq : TaskSequence) (h : Heap) : Heap :=
  h.updateSequence q fun _ => seq

def addTask (q : TaskSequencePtr) (task : Option TaskPtr) (h : Heap) : Int × Heap :=
  match task with
  | none => (-1, h)
  | some p =>
      let seq := h.sequence q
      if seq.seqId = "" ∨ seq.seqName = "" then (-1, h)
      else
        let h := h.updateSequence q fun seq => { seq with tasks := seq.tasks ++ [p] }
        (0, h.updateTask p fun t =>
          { t with
            isInSequence := true
            sequenceId := seq.seqId
            sequenceName := seq.seqName
            sequenceIndex := seq.tasks.length })

/-- What a client does: make the sequence, then make its tasks and add them one by one. -/
def buildTasks (q : TaskSequencePtr) (items : List (TaskPtr × Task)) (h : Heap) : Heap :=
  items.foldl (fun h item => ((h.makeTask item.1 item.2).addTask q (some item.1)).2) h

def buildSequence (q : TaskSequencePtr) (seq : TaskSequence) (items : List (TaskPtr × Task))
    (h : Heap) : Heap :=
  (h.makeSequence q seq).buildTasks q items

end Heap

/-- What an access outside a vector, or a recursion without end, would do. -/
inductive Fault where
  | outOfRange
  | outOfFuel
deriving DecidableEq

/-- An indexed read, undefined outside the vector. -/
def at? {α : Type} (l : List α) (i : Nat) : Except Fault α :=
  match l[i]? with
  | some a => .ok a
  | none => .error .outOfRange

/-- The flags of the depth-first search. -/
structure Dfs where
  visited : List Bool
  recStack : List Bool

/-- The loop of `CheckCyclicDependencies` over one row, given the recursive call. -/
def checkRow (visit : Nat → Dfs → Except Fault (Bool × Dfs)) :
    List Nat → Dfs → Except Fault (Bool × Dfs)
  | [], st => .ok (false, st)
  | d :: row, st => do
      let seen ← at? st.visited d
      let (cyclic, st) ← if seen then .ok (false, st) else visit d st
      if cyclic then return (true, st)
      if ← at? st.recStack d then return (true, st)
      checkRow visit row st

/-- `TaskSequence::CheckCyclicDependencies`. The fuel bounds the depth of the recursion. -/
def checkCyclicDependencies (depMatrix : List (List Nat)) :
    Nat → Nat → Dfs → Except Fault (Bool × Dfs)
  | 0, _, _ => .error .outOfFuel
  | fuel + 1, index, st => do
      let leave (st : Dfs) : Bool × Dfs :=
        (false, { st with recStack := st.recStack.set index false })
      if ← at? st.visited index then return leave st
      let row ← at? depMatrix index
      let (cyclic, st) ← checkRow (checkCyclicDependencies depMatrix fuel) row
        { visited := st.visited.set index true, recStack := st.recStack.set index true }
      if cyclic then return (true, st) else return leave st

/-- The loop of `HasCyclicDependencies` over the tasks. -/
def checkFrom (depMatrix : List (List Nat)) (fuel : Nat) : List Nat → Dfs → Except Fault Bool
  | [], _ => .ok false
  | i :: rest, st => do
      let (cyclic, st) ← checkCyclicDependencies depMatrix fuel i st
      if cyclic then return true else checkFrom depMatrix fuel rest st

/-- `TaskSequence::HasCyclicDependencies` for a sequence of `n` tasks. Every call but the last one
of a branch marks a task, so the recursion is at most `n + 1` deep. -/
def hasCyclicDependencies (n : Nat) (depMatrix : List (List Nat)) : Except Fault Bool :=
  if n = 0 then .ok false
  else if depMatrix.isEmpty then .ok false
  else
    checkFrom depMatrix (n + 1) (List.range n)
      { visited := List.replicate n false, recStack := List.replicate n false }

/-- The flags and the stack of the topological sort, the top of the stack first. -/
structure Sorting where
  visited : List Bool
  stack : List Nat

def sortRow (visit : Nat → Sorting → Except Fault Sorting) :
    List Nat → Sorting → Except Fault Sorting
  | [], st => .ok st
  | d :: row, st => do
      let st ← if ← at? st.visited d then .ok st else visit d st
      sortRow visit row st

def sorter (depMatrix : List (List Nat)) : Nat → Nat → Sorting → Except Fault Sorting
  | 0, _, _ => .error .outOfFuel
  | fuel + 1, index, st => do
      let row ← at? depMatrix index
      let st ← sortRow (sorter depMatrix fuel) row
        { st with visited := st.visited.set index true }
      return { st with stack := index :: st.stack }

/-- `TaskSequence::FindSortingIndexes` for a sequence of `n` tasks. The loop over the tasks is the
loop over a row. The stack is written out from the back. -/
def findSortingIndexes (n : Nat) (depMatrix : List (List Nat)) : Except Fault (List Nat) :=
  if n = 0 ∨ depMatrix.isEmpty then .ok (List.range n)
  else do
    let st ← sortRow (sorter depMatrix (n + 1)) (List.range n)
      { visited := List.replicate n false, stack := [] }
    return st.stack.reverse

/-- `order_index[counter--]= Stack.top()` until the stack is empty. The counter is unsigned. -/
def recordOrder : List Nat → Nat → List Nat → Except Fault (List Nat)
  | order, _, [] => .ok order
  | order, counter, top :: stack =>
      if counter < order.length then
        recordOrder (order.set counter top)
          (if counter = 0 then 18446744073709551615 else counter - 1) stack
      else .error .outOfRange

/-- `TaskSequence::FindSortingIndexes`, with the vector `order_index` as the source writes it and
the code it returns. -/
def recordSortingIndexes (n : Nat) (depMatrix : List (List Nat)) : Except Fault (Int × List Nat) :=
  if n = 0 ∨ depMatrix.isEmpty then .ok (0, List.range n)
  else do
    let st ← sortRow (sorter depMatrix (n + 1)) (List.range n)
      { visited := List.replicate n false, stack := [] }
    let order ← recordOrder (List.range n) (n - 1) st.stack
    return (0, order)

namespace Heap

/-- One row of the matrix, copied into its task. An invalid entry stops in the middle. -/
def setDependencyRow (n i : Nat) (p : TaskPtr) : List Nat → Heap → Bool × Heap
  | [], h => (true, h)
  | d :: row, h =>
      if d = i ∨ n ≤ d then (false, h)
      else
        setDependencyRow n i p row
          (h.updateTask p fun t => { t with depTaskSeqIndexes := t.depTaskSeqIndexes ++ [(d : Int)] })

/-- The rows from index `i` on. -/
def setDependencyRows (n : Nat) : Nat → List (TaskPtr × List Nat) → Heap → Bool × Heap
  | _, [], h => (true, h)
  | i, (p, row) :: rest, h =>
      let h := h.updateTask p fun t =>
        { t with
          dependOnSequenceTasks := if row.isEmpty then t.dependOnSequenceTasks else true
          depTaskSeqIndexes := [] }
      match setDependencyRow n i p row h with
      | (true, h) => setDependencyRows n (i + 1) rest h
      | (false, h) => (false, h)

/-- The latest end of the tasks depended on. -/
def maxExpirationTime (h : Heap) (tasks : List TaskPtr) : List Int → Time → Except Fault Time
  | [], latest => .ok latest
  | d :: rest, latest => do
      let dep := h.task (← at? tasks d.toNat)
      let expTime := if dep.dependOnSequenceTasks then dep.expMaxExpirationTime
        else dep.expirationTime
      maxExpirationTime h tasks rest (if expTime > latest then expTime else latest)

/-- The expected activation and expiration of the task at one index. -/
def setExpectedTimes (now : Clock) (tasks : List TaskPtr) (index : Nat) (h : Heap) :
    Except Fault Heap := do
  let p ← at? tasks index
  let t := h.task p
  if !t.dependOnSequenceTasks then return h
  let latest ← h.maxExpirationTime tasks t.depTaskSeqIndexes 0
  let expActivation :=
    if t.hasActivationTime && decide (latest < t.activationTime) then t.activationTime else latest
  let expExpiration := expActivation.addMSec t.maxDuration
  return h.updateTask p fun t =>
    ({ t with
      expMaxActivationTime := expActivation
      expMaxExpirationTime := expExpiration }.setExpirationTime now expExpiration).2

/-- The expected times of the tasks, dependencies first. -/
def setAllExpectedTimes (now : Clock) (tasks : List TaskPtr) :
    List Nat → Heap → Except Fault Heap
  | [], h => .ok h
  | index :: rest, h => do
      let h ← h.setExpectedTimes now tasks index
      setAllExpectedTimes now tasks rest h

def setTaskDependency (now : Clock) (q : TaskSequencePtr) (depIndexes : List (List Nat))
    (h : Heap) : Except Fault (Int × Heap) := do
  let tasks := (h.sequence q).tasks
  let n := tasks.length
  if depIndexes.isEmpty || depIndexes.length != n then return (-1, h)
  if ← hasCyclicDependencies n depIndexes then return (-1, h)
  let h := h.updateSequence q fun seq => { seq with dependencyMatrix := depIndexes }
  match setDependencyRows n 0 (tasks.zip depIndexes) h with
  | (false, h) => return (-1, h)
  | (true, h) =>
      let sortingIndex ← findSortingIndexes n depIndexes
      return (0, ← setAllExpectedTimes now tasks sortingIndex h)

/-- The loop of `Sort` over the sorting indexes. -/
def orderTasks (tasks : List TaskPtr) : List Nat → Except Fault (List TaskPtr)
  | [] => .ok []
  | index :: order => do
      let p ← at? tasks index
      let ordered ← orderTasks tasks order
      return p :: ordered

/-- `TaskSequence::Sort`. The tasks move. The matrix, and what the tasks know of their places and of
the places of others, stay. -/
def sort (q : TaskSequencePtr) (h : Heap) : Except Fault (Int × Heap) := do
  let seq := h.sequence q
  let (code, order) ← recordSortingIndexes seq.tasks.length seq.dependencyMatrix
  if code < 0 then return (-1, h)
  let ordered ← orderTasks seq.tasks order
  return (0, h.updateSequence q fun seq => { seq with tasks := ordered })

end Heap

end DshLmc
