import Mathlib.Data.List.Basic
import DshLmc.Proof.Objects

/-!
# What each method does

One description per method: the two containers after it, and the status of each task. The rest of
the objects stays, by `SameObjects`. The later modules use these and never unfold a method.
-/

namespace DshLmc

namespace TaskManager

variable {S : SetImpl TaskPtr} {m m' : TaskManager} {p : TaskPtr} {q : TaskSequencePtr}
  {id name attrName info : String} {status : TaskStatus}

theorem sameObjects_foldl {f : Heap → TaskSequencePtr → Heap} {h : Heap}
    (hf : ∀ h q, SameObjects h (f h q)) (qs : List TaskSequencePtr) :
    SameObjects h (qs.foldl f h) := by
  induction qs generalizing h with
  | nil => exact SameObjects.refl h
  | cons q rest ih => exact (hf h q).trans ih

theorem sameObjects_setSequenceTaskStatus :
    SameObjects m.toHeap (m.setSequenceTaskStatus id name status info).2.toHeap :=
  sameObjects_foldl (fun _ _ => sameObjects_setStatusInSequence) _

theorem status_setSequenceTaskStatus :
    ((m.setSequenceTaskStatus id name status info).2.task p).status
      = if ∃ q ∈ m.taskSequences, m.findTask q id name = some p then status
        else (m.task p).status := by
  refine foldl_effect (SameObjects m.toHeap) (fun h => (h.task p).status) (fun _ => status)
    (fun _ => rfl) (fun h q hs => hs.trans sameObjects_setStatusInSequence)
    (fun h q hs => ?_) (SameObjects.refl _) m.taskSequences
  rw [status_setStatusInSequence, hs.findTask]

theorem sameObjects_setAsynchTaskStatus' :
    SameObjects m.toHeap (m.setAsynchTaskStatus attrName status info).2.toHeap :=
  sameObjects_foldl (fun _ _ => sameObjects_setAsynchTaskStatus) _

theorem status_setAsynchTaskStatus' :
    ((m.setAsynchTaskStatus attrName status info).2.task p).status
      = if ∃ q ∈ m.taskSequences, m.findAsynchTask q attrName = some p then status
        else (m.task p).status := by
  refine foldl_effect (SameObjects m.toHeap) (fun h => (h.task p).status) (fun _ => status)
    (fun _ => rfl) (fun h q hs => hs.trans sameObjects_setAsynchTaskStatus)
    (fun h q hs => ?_) (SameObjects.refl _) m.taskSequences
  rw [status_setAsynchTaskStatus, hs.findAsynchTask]

theorem executedStatus_ne_idle (devName : String) (task : Task) (outcome : RunOutcome) :
    (executedStatus devName task outcome).1 ≠ .idle := by
  cases outcome with
  | done => cases h : task.isAsynch <;> simp [executedStatus, h]
  | devFailed reason => simp [executedStatus]
  | exception => simp [executedStatus]

theorem sameObjects_reportTask {task : Task} {outcome : RunOutcome} :
    SameObjects m.toHeap (m.reportTask task outcome).toHeap :=
  sameObjects_setSequenceTaskStatus

theorem status_reportTask {task : Task} {outcome : RunOutcome} :
    ((m.reportTask task outcome).task p).status
      = if ∃ q ∈ m.taskSequences, m.findTask q task.id task.cmdName = some p
        then (executedStatus m.devName task outcome).1 else (m.task p).status :=
  status_setSequenceTaskStatus

/-- Cancelling twice is cancelling once. -/
private def cancelIdle (status : TaskStatus) : TaskStatus :=
  if status = .idle then .canceled else status

private theorem cancelIdle_idem (status : TaskStatus) :
    cancelIdle (cancelIdle status) = cancelIdle status := by
  cases status <;> rfl

theorem sameObjects_revokeTaskSequence :
    SameObjects m.toHeap (m.revokeTaskSequence name).2.toHeap := by
  refine sameObjects_foldl (fun h q => ?_) _
  split
  · exact SameObjects.refl h
  · exact sameObjects_cancelInSequence

@[simp]
theorem taskQueue_revokeTaskSequence :
    (m.revokeTaskSequence name).2.taskQueue
      = m.taskQueue.filter fun p => !matchTaskBySequenceName name (m.task p) := rfl

theorem status_revokeTaskSequence :
    ((m.revokeTaskSequence name).2.task p).status
      = if (∃ q ∈ m.taskSequences, (m.sequence q).seqName = name ∧ p ∈ (m.sequence q).tasks)
          ∧ (m.task p).status = .idle
        then .canceled else (m.task p).status := by
  have hloop : ((m.revokeTaskSequence name).2.task p).status
      = if ∃ q ∈ m.taskSequences, (m.sequence q).seqName = name ∧ p ∈ (m.sequence q).tasks
        then cancelIdle (m.task p).status else (m.task p).status := by
    refine foldl_effect (SameObjects m.toHeap) (fun h => (h.task p).status) cancelIdle
      cancelIdle_idem (fun h q hs => ?_) (fun h q hs => ?_)
      (SameObjects.refl _) m.taskSequences
    · split
      · exact hs
      · exact hs.trans sameObjects_cancelInSequence
    · by_cases hname : (m.sequence q).seqName = name
      · by_cases hp : p ∈ (m.sequence q).tasks <;>
          simp [hs.seqName, hs.tasks, hname, hp, status_cancelInSequence, cancelIdle]
      · simp [hs.seqName, hname]
  rw [hloop, cancelIdle]
  split <;> simp_all

theorem sameObjects_revokeTask : SameObjects m.toHeap (m.revokeTask name).2.toHeap :=
  sameObjects_foldl (fun _ _ => sameObjects_cancelInSequence) _

@[simp]
theorem taskQueue_revokeTask :
    (m.revokeTask name).2.taskQueue
      = m.taskQueue.filter fun p => !matchTaskByName name (m.task p) := rfl

theorem status_revokeTask :
    ((m.revokeTask name).2.task p).status
      = if (∃ q ∈ m.taskSequences, p ∈ (m.sequence q).tasks)
          ∧ (m.task p).cmdName = name ∧ (m.task p).status = .idle
        then .canceled else (m.task p).status := by
  have hloop : ((m.revokeTask name).2.task p).status
      = if ∃ q ∈ m.taskSequences, p ∈ (m.sequence q).tasks ∧ (m.task p).cmdName = name
        then cancelIdle (m.task p).status else (m.task p).status := by
    refine foldl_effect (SameObjects m.toHeap) (fun h => (h.task p).status) cancelIdle
      cancelIdle_idem (fun h q hs => hs.trans sameObjects_cancelInSequence)
      (fun h q hs => ?_) (SameObjects.refl _) m.taskSequences
    by_cases hp : p ∈ (m.sequence q).tasks <;> by_cases hname : (m.task p).cmdName = name <;>
      simp [hs.tasks, hs.cmdName, hname, hp, status_cancelInSequence, matchTaskByName, cancelIdle]
  rw [hloop, cancelIdle]
  by_cases hname : (m.task p).cmdName = name
  · split <;> simp_all
  · simp [hname]

def enqueueTasks (S : SetImpl TaskPtr) (ps : List TaskPtr) (m : TaskManager) : TaskManager :=
  ps.foldl (fun m p => m.enqueue S p) m

theorem sameObjects_enqueue : SameObjects m.toHeap (m.enqueue S p).toHeap :=
  sameObjects_updateTask (fun t => { t with status := .idle }) fun _ => rfl

/-- What queueing tasks changes: they become `IDLE`, and the queue gains none but them. -/
structure Enqueued (ps : List TaskPtr) (m m' : TaskManager) : Prop where
  objects : SameObjects m.toHeap m'.toHeap
  sequence : m'.sequence = m.sequence
  taskSequences : m'.taskSequences = m.taskSequences
  status : ∀ p, (m'.task p).status = if p ∈ ps then .idle else (m.task p).status
  kept : m.taskQueue ⊆ m'.taskQueue
  subset : m'.taskQueue ⊆ ps ++ m.taskQueue

theorem enqueued_enqueueTasks (ps : List TaskPtr) (m : TaskManager) :
    Enqueued ps m (m.enqueueTasks S ps) := by
  induction ps generalizing m with
  | nil => exact ⟨SameObjects.refl _, rfl, rfl, fun _ => by simp [enqueueTasks],
      fun _ hp => hp, fun _ hp => hp⟩
  | cons p rest ih =>
      have hrest : Enqueued rest (m.enqueue S p) (m.enqueueTasks S (p :: rest)) :=
        ih (m.enqueue S p)
      have hstatus : ∀ p', ((m.enqueue S p).task p').status
          = if p' = p then .idle else (m.task p').status := by
        intro p'
        by_cases hp : p' = p
        · subst hp
          simp [enqueue, Heap.updateTask]
        · simp [enqueue, Heap.updateTask, hp]
      refine ⟨sameObjects_enqueue.trans hrest.objects, hrest.sequence,
        hrest.taskSequences, fun p' => ?_, fun p' hp => ?_, fun p' hp => ?_⟩
      · rw [hrest.status p', hstatus p']
        by_cases hr : p' ∈ rest <;> simp [hr]
      · exact hrest.kept (S.mem_insert_of_mem hp)
      · have hmem := hrest.subset hp
        simp only [List.mem_append, List.mem_cons] at hmem ⊢
        obtain hr | hq := hmem
        · exact Or.inl (Or.inr hr)
        · obtain rfl | hq := S.eq_or_mem_of_mem_insert hq
          · exact Or.inl (Or.inl rfl)
          · exact Or.inr hq

theorem nodup_enqueueTasks {ps : List TaskPtr} (hq : m.taskQueue.Nodup) (hps : ps.Nodup)
    (hnew : ∀ p ∈ ps, p ∉ m.taskQueue) : (m.enqueueTasks S ps).taskQueue.Nodup := by
  induction ps generalizing m with
  | nil => exact hq
  | cons p rest ih =>
      obtain ⟨hp, hrest⟩ := List.nodup_cons.mp hps
      refine ih (S.insert_nodup hq (hnew p List.mem_cons_self)) hrest fun p' hp' hmem => ?_
      obtain rfl | hmem := S.eq_or_mem_of_mem_insert hmem
      · exact hp hp'
      · exact hnew p' (List.mem_cons_of_mem _ hp') hmem

theorem subset_enqueueTasks {ps : List TaskPtr}
    (hless : ∀ p ∈ ps, ∀ p' ∈ ps ++ m.taskQueue, p' ≠ p →
      m.less p p' = true ∨ m.less p' p = true) : ps ⊆ (m.enqueueTasks S ps).taskQueue := by
  induction ps generalizing m with
  | nil => simp
  | cons p rest ih =>
      have hobjects : SameObjects m.toHeap (m.enqueue S p).toHeap := sameObjects_enqueue
      have hsub : rest ⊆ ((m.enqueue S p).enqueueTasks S rest).taskQueue := by
        refine ih fun a ha b hb hne => ?_
        simp only [Heap.less, hobjects.compareTask]
        refine hless a (List.mem_cons_of_mem _ ha) b ?_ hne
        obtain hb | hb := List.mem_append.mp hb
        · simp [hb]
        · obtain rfl | hb := S.eq_or_mem_of_mem_insert hb
          · simp
          · simp [hb]
      have hhead : p ∈ (m.enqueue S p).taskQueue := by
        refine S.mem_insert_self fun b hb hne => ?_
        exact hless p List.mem_cons_self b (by simp [hb]) hne
      intro p' hp'
      obtain rfl | hp' := List.mem_cons.mp hp'
      · exact (enqueued_enqueueTasks rest (m.enqueue S p')).kept hhead
      · exact hsub hp'

/-- The loop of `AddTaskSequence` queues the tasks before the first one it refuses. -/
theorem enqueueAll_cases (hasAttribute : String → Bool) (ps : List TaskPtr) (m : TaskManager) :
    m.enqueueAll S hasAttribute ps = (true, m.enqueueTasks S ps)
        ∧ (∀ p ∈ ps, (m.task p).isAsynch = true → hasAttribute (m.task p).statusAttrName = true)
      ∨ ∃ front p back, ps = front ++ p :: back
        ∧ (∀ p' ∈ front, (m.task p').isAsynch = true →
          hasAttribute (m.task p').statusAttrName = true)
        ∧ (m.task p).isAsynch = true ∧ hasAttribute (m.task p).statusAttrName = false
        ∧ m.enqueueAll S hasAttribute ps = (false, m.enqueueTasks S front) := by
  induction ps generalizing m with
  | nil => exact Or.inl ⟨rfl, by simp⟩
  | cons p rest ih =>
      by_cases hmissing :
          (m.task p).isAsynch = true ∧ hasAttribute (m.task p).statusAttrName = false
      · refine Or.inr ⟨[], p, rest, rfl, by simp, hmissing.1, hmissing.2, ?_⟩
        simp [enqueueAll, hmissing, enqueueTasks]
      · have hobjects : SameObjects m.toHeap (m.enqueue S p).toHeap := sameObjects_enqueue
        have hnext : m.enqueueAll S hasAttribute (p :: rest)
            = (m.enqueue S p).enqueueAll S hasAttribute rest := by
          have : ((m.task p).isAsynch && !hasAttribute (m.task p).statusAttrName) = false := by
            simpa using hmissing
          simp [enqueueAll, this]
        rw [hnext]
        have hcons : ∀ {ps : List TaskPtr}, (∀ p' ∈ ps, ((m.enqueue S p).task p').isAsynch = true →
              hasAttribute ((m.enqueue S p).task p').statusAttrName = true) →
            ∀ p' ∈ p :: ps, (m.task p').isAsynch = true →
              hasAttribute (m.task p').statusAttrName = true := by
          intro ps hall p' hp' hasynch
          obtain rfl | hp' := List.mem_cons.mp hp'
          · simpa [hasynch] using hmissing
          · have h := hall p' hp'
            rw [hobjects.isAsynch, hobjects.statusAttrName] at h
            exact h hasynch
        obtain ⟨heq, hall⟩ | ⟨front, p', back, rfl, hfront, hasynch, hattr, heq⟩ :=
          ih (m.enqueue S p)
        · exact Or.inl ⟨heq, hcons hall⟩
        · rw [hobjects.isAsynch] at hasynch
          rw [hobjects.statusAttrName] at hattr
          exact Or.inr ⟨p :: front, p', back, rfl, hcons hfront, hasynch, hattr, heq⟩

/-- `AddTaskSequence` gets past its checks, so it starts to queue the tasks. -/
def Accepts (m : TaskManager) (q : TaskSequencePtr) : Prop :=
  (m.sequence q).tasks ≠ []
    ∧ (m.taskQueue.length + (m.sequence q).tasks.length : Int) ≤ m.maxTasksInQueue

instance (m : TaskManager) (q : TaskSequencePtr) : Decidable (m.Accepts q) := by
  unfold Accepts
  infer_instance

/-- `AddTaskSequence` stops at the task, whose status attribute the device lacks. -/
def Refuses (m : TaskManager) (hasAttribute : String → Bool) (p : TaskPtr) : Prop :=
  (m.task p).isAsynch = true ∧ hasAttribute (m.task p).statusAttrName = false

/-- **AddTaskSequence** refuses, or stops at a task it refuses, or succeeds. -/
theorem addTaskSequence_cases (hasAttribute : String → Bool)
    (taskSequence : Option TaskSequencePtr) (addToQueue : Bool) (signals : Signals)
    (m : TaskManager) :
    (∀ q, taskSequence = some q → ¬ m.Accepts q)
        ∧ m.addTaskSequence S hasAttribute taskSequence addToQueue signals = (-1, signals, m)
      ∨ (∃ q front p back, taskSequence = some q ∧ m.Accepts q ∧ addToQueue = true
          ∧ (m.sequence q).tasks = front ++ p :: back
          ∧ (∀ p' ∈ front, (m.task p').isAsynch = true →
            hasAttribute (m.task p').statusAttrName = true)
          ∧ (m.task p).isAsynch = true ∧ hasAttribute (m.task p).statusAttrName = false
          ∧ m.addTaskSequence S hasAttribute taskSequence addToQueue signals
            = (-1, signals, m.enqueueTasks S front))
      ∨ ∃ q, taskSequence = some q ∧ m.Accepts q
          ∧ (addToQueue = true → ∀ p ∈ (m.sequence q).tasks, (m.task p).isAsynch = true →
            hasAttribute (m.task p).statusAttrName = true)
          ∧ m.addTaskSequence S hasAttribute taskSequence addToQueue signals
            = (0, { signals with wakeUpSignal := true },
                { m.enqueueTasks S (if addToQueue then (m.sequence q).tasks else []) with
                  taskSequences := m.taskSequences ++ [q] }) := by
  cases taskSequence with
  | none => exact Or.inl ⟨by simp, rfl⟩
  | some q =>
      by_cases haccepts : m.Accepts q
      · have hlength : ¬ (m.sequence q).tasks.length ≤ 0 := by simpa using haccepts.1
        have hquota := not_lt.mpr haccepts.2
        right
        cases addToQueue with
        | false =>
            refine Or.inr ⟨q, rfl, haccepts, by simp, ?_⟩
            simp only [addTaskSequence, hlength, gt_iff_lt, hquota, Bool.false_eq_true, if_false]
            rfl
        | true =>
            obtain ⟨heq, hall⟩ | ⟨front, p, back, htasks, hfront, hasynch, hattr, heq⟩ :=
              enqueueAll_cases (S := S) hasAttribute (m.sequence q).tasks m
            · refine Or.inr ⟨q, rfl, haccepts, fun _ => hall, ?_⟩
              simp only [addTaskSequence, hlength, gt_iff_lt, hquota, if_true, if_false, heq,
                (enqueued_enqueueTasks (S := S) (m.sequence q).tasks m).taskSequences]
            · refine Or.inl
                ⟨q, front, p, back, rfl, haccepts, rfl, htasks, hfront, hasynch, hattr, ?_⟩
              simp only [addTaskSequence, hlength, gt_iff_lt, hquota, if_true, if_false, heq]
      · refine Or.inl ⟨fun q' hq' => Option.some.inj hq' ▸ haccepts, ?_⟩
        by_cases hempty : (m.sequence q).tasks = []
        · simp [addTaskSequence, hempty]
        · have hlength : ¬ (m.sequence q).tasks.length ≤ 0 := by simpa using hempty
          have hquota : (m.taskQueue.length + (m.sequence q).tasks.length : Int)
              > m.maxTasksInQueue := not_le.mp fun h => haccepts ⟨hempty, h⟩
          simp only [addTaskSequence, hlength, hquota, if_true, if_false]

/-- Where the first task is refused, none is queued before. -/
theorem front_eq_nil {hasAttribute : String → Bool} {tasks front back : List TaskPtr} {p : TaskPtr}
    (htasks : tasks = front ++ p :: back)
    (hfront : ∀ p' ∈ front, (m.task p').isAsynch = true →
      hasAttribute (m.task p').statusAttrName = true)
    (hhead : ∀ p' ∈ tasks.head?, m.Refuses hasAttribute p') : front = [] := by
  cases front with
  | nil => rfl
  | cons p' rest =>
      obtain ⟨hasynch, hattr⟩ := hhead p' (by simp [htasks])
      exact absurd (hfront p' List.mem_cons_self hasynch) (by simp [hattr])

end TaskManager

end DshLmc
