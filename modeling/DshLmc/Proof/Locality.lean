import DshLmc.Core.Process
import DshLmc.Proof.Steps

/-!
# What a manager reads and writes

A manager reads of the shared objects those that its containers lead to: the queued tasks, the
sequences it tracks and their tasks. On two heaps that agree on these an operation gives the same
result, and leaves them in agreement. What an operation writes are statuses of tasks that it can
name beforehand, and a sequence is written to only together with one of its tasks.
-/

namespace DshLmc

/-- Some of the objects behind the pointers. -/
structure Objects where
  task : Set TaskPtr
  sequence : Set TaskSequencePtr

def Objects.Closed (F : Objects) (h : Heap) : Prop :=
  ∀ q ∈ F.sequence, ∀ p ∈ (h.sequence q).tasks, p ∈ F.task

/-- The same objects, and among some of them also the same statuses. -/
structure AgreeOn (F : Objects) (h h' : Heap) : Prop where
  objects : SameObjects h h'
  task : ∀ p ∈ F.task, h'.task p = h.task p
  sequence : ∀ q ∈ F.sequence, h'.sequence q = h.sequence q

variable {F : Objects} {h h' h'' : Heap} {p p' : TaskPtr} {q : TaskSequencePtr}
  {ps : List TaskPtr} {qs : List TaskSequencePtr} {selected : Task → Bool}
  {status : TaskStatus} {info id name attrName : String}

theorem SameObjects.symm (hs : SameObjects h h') : SameObjects h' h :=
  ⟨fun p => (hs.task p).symm, fun q => (hs.sequence q).symm⟩

theorem Objects.Closed.of_sameObjects (hclosed : F.Closed h) (hs : SameObjects h h') :
    F.Closed h' := by
  intro q hq p hp
  rw [hs.tasks] at hp
  exact hclosed q hq p hp

namespace AgreeOn

theorem refl (F : Objects) (h : Heap) : AgreeOn F h h :=
  ⟨SameObjects.refl h, fun _ _ => rfl, fun _ _ => rfl⟩

theorem symm (ha : AgreeOn F h h') : AgreeOn F h' h :=
  ⟨ha.objects.symm, fun p hp => (ha.task p hp).symm, fun q hq => (ha.sequence q hq).symm⟩

theorem trans (h₁ : AgreeOn F h h') (h₂ : AgreeOn F h' h'') : AgreeOn F h h'' where
  objects := h₁.objects.trans h₂.objects
  task p hp := (h₂.task p hp).trans (h₁.task p hp)
  sequence q hq := (h₂.sequence q hq).trans (h₁.sequence q hq)

theorem updateTask (ha : AgreeOn F h h') (p : TaskPtr) (change : Task → Task)
    (hfixed : ∀ t, (change t).fixed = t.fixed) :
    AgreeOn F (h.updateTask p change) (h'.updateTask p change) where
  objects := (sameObjects_updateTask change hfixed).symm.trans
    (ha.objects.trans (sameObjects_updateTask change hfixed))
  task p' hp' := by
    by_cases hp : p' = p
    · subst hp
      simp only [Heap.updateTask, Function.update_self, ha.task p' hp']
    · simp only [Heap.updateTask, Function.update_of_ne hp, ha.task p' hp']
  sequence := ha.sequence

theorem setStatus (ha : AgreeOn F h h') (p : TaskPtr) (status : TaskStatus) (info : String) :
    AgreeOn F (h.setStatus p status info) (h'.setStatus p status info) :=
  ha.updateTask p (Task.setStatus status info) fun _ => rfl

theorem computeStatus (ha : AgreeOn F h h') (hclosed : F.Closed h) (q : TaskSequencePtr) :
    AgreeOn F (h.computeStatus q) (h'.computeStatus q) where
  objects := sameObjects_computeStatus.symm.trans (ha.objects.trans sameObjects_computeStatus)
  task := ha.task
  sequence q' hq' := by
    by_cases hq : q' = q
    · subst hq
      have hsummary : h'.summary q' = h.summary q' := by
        simp only [Heap.summary, Heap.tasksOf, ha.sequence q' hq']
        rw [List.map_congr_left fun p hp => ha.task p (hclosed q' hq' p hp)]
      simp only [Heap.computeStatus, Heap.updateSequence, Function.update_self, hsummary,
        ha.sequence q' hq']
    · simp only [Heap.computeStatus, Heap.updateSequence, Function.update_of_ne hq,
        ha.sequence q' hq']

variable (selected) in
theorem cancelTasks (ha : AgreeOn F h h') (hps : ∀ p ∈ ps, p ∈ F.task) :
    (TaskManager.cancelTasks selected ps h').1 = (TaskManager.cancelTasks selected ps h).1
      ∧ AgreeOn F (TaskManager.cancelTasks selected ps h).2
        (TaskManager.cancelTasks selected ps h').2 := by
  induction ps generalizing h h' with
  | nil => exact ⟨rfl, ha⟩
  | cons p rest ih =>
      have hrest : ∀ p' ∈ rest, p' ∈ F.task := fun p' hp' => hps p' (List.mem_cons_of_mem p hp')
      simp only [TaskManager.cancelTasks, ha.task p (hps p List.mem_cons_self)]
      split
      · exact ih ha hrest
      · exact ⟨rfl, (ih (ha.setStatus p _ _) hrest).2⟩

theorem cancelInSequence (ha : AgreeOn F h h') (hclosed : F.Closed h) (hq : q ∈ F.sequence) :
    AgreeOn F (TaskManager.cancelInSequence selected h q)
      (TaskManager.cancelInSequence selected h' q) := by
  obtain ⟨hflag, hafter⟩ := ha.cancelTasks selected (hclosed q hq)
  have hobjects : SameObjects h (TaskManager.cancelTasks selected (h.sequence q).tasks h).2 :=
    TaskManager.sameObjects_cancelTasks
  unfold TaskManager.cancelInSequence
  rw [ha.sequence q hq]
  cases hleft : TaskManager.cancelTasks selected (h.sequence q).tasks h with
  | mk flag a =>
      cases hright : TaskManager.cancelTasks selected (h.sequence q).tasks h' with
      | mk flag' b =>
          rw [hleft] at hflag hafter hobjects
          rw [hright] at hflag hafter
          obtain rfl : flag' = flag := hflag
          cases flag' with
          | true => exact hafter.computeStatus (hclosed.of_sameObjects hobjects) q
          | false => exact hafter

theorem setStatusInSequence (ha : AgreeOn F h h') (hclosed : F.Closed h) (q : TaskSequencePtr) :
    AgreeOn F (TaskManager.setStatusInSequence id name status info h q)
      (TaskManager.setStatusInSequence id name status info h' q) := by
  unfold TaskManager.setStatusInSequence
  rw [ha.objects.findTask]
  split
  · exact ha
  · rename_i p _
    rw [ha.objects.isInSequence]
    split
    · exact (ha.setStatus p status info).computeStatus
        (hclosed.of_sameObjects sameObjects_setStatus) q
    · exact ha.setStatus p status info

theorem setAsynchTaskStatus (ha : AgreeOn F h h') (hclosed : F.Closed h) (q : TaskSequencePtr) :
    AgreeOn F (h.setAsynchTaskStatus attrName status info q)
      (h'.setAsynchTaskStatus attrName status info q) := by
  unfold Heap.setAsynchTaskStatus
  rw [ha.objects.findAsynchTask]
  split
  · exact ha
  · exact (ha.setStatus _ status info).computeStatus
      (hclosed.of_sameObjects sameObjects_setStatus) q

/-- A loop over sequences, each of whose rounds keeps the agreement. -/
theorem foldl {f : Heap → TaskSequencePtr → Heap} (ha : AgreeOn F h h') (hclosed : F.Closed h)
    (hqs : ∀ q ∈ qs, q ∈ F.sequence) (hsame : ∀ a q, SameObjects a (f a q))
    (hf : ∀ {a b q}, AgreeOn F a b → F.Closed a → q ∈ F.sequence → AgreeOn F (f a q) (f b q)) :
    AgreeOn F (qs.foldl f h) (qs.foldl f h') := by
  induction qs generalizing h h' with
  | nil => exact ha
  | cons q rest ih =>
      refine ih (hf ha hclosed (hqs q List.mem_cons_self)) ?_ fun q' hq' => ?_
      · exact hclosed.of_sameObjects (hsame h q)
      · exact hqs q' (List.mem_cons_of_mem q hq')

theorem updateTask_left (hp : p ∉ F.task) (change : Task → Task)
    (hfixed : ∀ t, (change t).fixed = t.fixed) : AgreeOn F h (h.updateTask p change) where
  objects := sameObjects_updateTask change hfixed
  task p' hp' := by
    have hne : p' ≠ p := fun heq => hp (heq ▸ hp')
    simp only [Heap.updateTask, Function.update_of_ne hne]
  sequence _ _ := rfl

theorem setStatus_left (hp : p ∉ F.task) : AgreeOn F h (h.setStatus p status info) :=
  updateTask_left hp (Task.setStatus status info) fun _ => rfl

theorem computeStatus_left (hq : q ∉ F.sequence) : AgreeOn F h (h.computeStatus q) where
  objects := sameObjects_computeStatus
  task _ _ := rfl
  sequence q' hq' := by
    have hne : q' ≠ q := fun heq => hq (heq ▸ hq')
    simp only [Heap.computeStatus, Heap.updateSequence, Function.update_of_ne hne]

theorem cancelTasks_left (hnot : ∀ p ∈ ps, (h.task p).status = .idle →
      selected (h.task p) = true → p ∉ F.task) :
    AgreeOn F h (TaskManager.cancelTasks selected ps h).2 := by
  induction ps generalizing h with
  | nil => exact refl F h
  | cons p rest ih =>
      simp only [TaskManager.cancelTasks]
      split
      · exact ih fun p' hp' => hnot p' (List.mem_cons_of_mem p hp')
      · rename_i hcancel
        push Not at hcancel
        have hp := hnot p List.mem_cons_self hcancel.1 (by simpa using hcancel.2)
        refine (setStatus_left hp).trans (ih fun p' hp' hidle hselected => ?_)
        -- A task cancelled already is not `IDLE`.
        by_cases heq : p' = p
        · exact heq ▸ hp
        · simp only [Heap.setStatus, Heap.updateTask, Function.update_of_ne heq] at hidle hselected
          exact hnot p' (List.mem_cons_of_mem p hp') hidle hselected

theorem exists_of_cancelTasks (hcancelled : (TaskManager.cancelTasks selected ps h).1 = true) :
    ∃ p ∈ ps, (h.task p).status = .idle ∧ selected (h.task p) = true := by
  induction ps with
  | nil => exact absurd hcancelled Bool.false_ne_true
  | cons p rest ih =>
      by_cases hskip : (h.task p).status ≠ .idle ∨ selected (h.task p) = false
      · simp only [TaskManager.cancelTasks, hskip, if_true] at hcancelled
        obtain ⟨p', hp', hidle⟩ := ih hcancelled
        exact ⟨p', List.mem_cons_of_mem p hp', hidle⟩
      · push Not at hskip
        exact ⟨p, List.mem_cons_self, hskip.1, by simpa using hskip.2⟩

theorem cancelInSequence_left (hclosed : F.Closed h) (hnot : ∀ p ∈ (h.sequence q).tasks,
      (h.task p).status = .idle → selected (h.task p) = true → p ∉ F.task) :
    AgreeOn F h (TaskManager.cancelInSequence selected h q) := by
  have hcancel := cancelTasks_left hnot
  unfold TaskManager.cancelInSequence
  split
  · rename_i a heq
    obtain ⟨p, hp, hidle, hselected⟩ := exists_of_cancelTasks (congrArg Prod.fst heq)
    have hq : q ∉ F.sequence := fun hq => hnot p hp hidle hselected (hclosed q hq p hp)
    rw [heq] at hcancel
    exact hcancel.trans (computeStatus_left hq)
  · rename_i a heq
    rw [heq] at hcancel
    exact hcancel

theorem setStatusInSequence_left (hclosed : F.Closed h)
    (hnot : ∀ p, h.findTask q id name = some p → p ∉ F.task) :
    AgreeOn F h (TaskManager.setStatusInSequence id name status info h q) := by
  unfold TaskManager.setStatusInSequence
  split
  · exact refl F h
  · rename_i p hfind
    have hp := hnot p hfind
    split
    · have hq : q ∉ F.sequence := fun hq => hp (hclosed q hq p (List.mem_of_find?_eq_some hfind))
      exact (setStatus_left hp).trans (computeStatus_left hq)
    · exact setStatus_left hp

theorem setAsynchTaskStatus_left (hclosed : F.Closed h)
    (hnot : ∀ p, h.findAsynchTask q attrName = some p → p ∉ F.task) :
    AgreeOn F h (h.setAsynchTaskStatus attrName status info q) := by
  unfold Heap.setAsynchTaskStatus
  split
  · exact refl F h
  · rename_i p hfind
    have hp := hnot p hfind
    have hq : q ∉ F.sequence := fun hq => hp (hclosed q hq p (List.mem_of_find?_eq_some hfind))
    exact (setStatus_left hp).trans (computeStatus_left hq)

end AgreeOn

namespace TaskManager

structure Within (F : Objects) (m : TaskManager) : Prop where
  queued : ∀ p ∈ m.taskQueue, p ∈ F.task
  tracked : ∀ q ∈ m.taskSequences, q ∈ F.sequence
  closed : F.Closed m.toHeap

structure AlikeOn (F : Objects) (m m' : TaskManager) : Prop where
  heap : AgreeOn F m.toHeap m'.toHeap
  containers : m'.toContainers = m.toContainers

variable {S : SetImpl TaskPtr} {m m' : TaskManager} {signals : Signals} {now : Clock}

theorem Within.of_sublist (hw : m.Within F) (hqueue : m'.taskQueue.Sublist m.taskQueue)
    (hsequences : m'.taskSequences.Sublist m.taskSequences)
    (hs : SameObjects m.toHeap m'.toHeap) : m'.Within F where
  queued p hp := hw.queued p (hqueue.subset hp)
  tracked q hq := hw.tracked q (hsequences.subset hq)
  closed := hw.closed.of_sameObjects hs

namespace AlikeOn

theorem taskQueue (ha : m.AlikeOn F m') : m'.taskQueue = m.taskQueue :=
  congrArg Containers.taskQueue ha.containers

theorem taskSequences (ha : m.AlikeOn F m') : m'.taskSequences = m.taskSequences :=
  congrArg Containers.taskSequences ha.containers

theorem removeInQueue (ha : m.AlikeOn F m') (hw : m.Within F) (found : Task → Bool) :
    (m.removeInQueue found).AlikeOn F (m'.removeInQueue found) where
  heap := ha.heap
  containers := by
    have hqueue : m.taskQueue.filter (fun p => !found (m'.task p))
        = m.taskQueue.filter fun p => !found (m.task p) :=
      List.filter_congr fun p hp => by rw [ha.heap.task p (hw.queued p hp)]
    simp only [TaskManager.removeInQueue, ha.containers, hqueue]

theorem removeSequences (ha : m.AlikeOn F m') (hw : m.Within F) (found : TaskSequence → Bool) :
    (m.removeSequences found).AlikeOn F (m'.removeSequences found) where
  heap := ha.heap
  containers := by
    have hsequences : m.taskSequences.filter (fun q => !found (m'.sequence q))
        = m.taskSequences.filter fun q => !found (m.sequence q) :=
      List.filter_congr fun q hq => by rw [ha.heap.sequence q (hw.tracked q hq)]
    simp only [TaskManager.removeSequences, ha.containers, hsequences]

/-- A loop over the sequences that a manager tracks. -/
theorem foldl {f : Heap → TaskSequencePtr → Heap} (ha : m.AlikeOn F m') (hw : m.Within F)
    (hsame : ∀ a q, SameObjects a (f a q))
    (hf : ∀ {a b q}, AgreeOn F a b → F.Closed a → q ∈ F.sequence → AgreeOn F (f a q) (f b q)) :
    (m.onHeap fun h => m.taskSequences.foldl f h).AlikeOn F
      (m'.onHeap fun h => m'.taskSequences.foldl f h) where
  heap := by
    simp only [onHeap, ha.taskSequences]
    exact ha.heap.foldl hw.closed hw.tracked hsame hf
  containers := ha.containers

/-- The queue is ordered by what no status write changes, so the whole comparator is the same. -/
theorem less_eq (ha : m.AlikeOn F m') : m'.less = m.less := by
  funext p p'
  exact ha.heap.objects.compareTask p p'

theorem enqueue (ha : m.AlikeOn F m') (p : TaskPtr) :
    (m.enqueue S p).AlikeOn F (m'.enqueue S p) where
  heap := ha.heap.updateTask p (fun t => { t with status := .idle }) fun _ => rfl
  containers := by simp only [TaskManager.enqueue, ha.less_eq, ha.containers]

theorem enqueueAll (ha : m.AlikeOn F m') (hasAttribute : String → Bool) (ps : List TaskPtr) :
    (m'.enqueueAll S hasAttribute ps).1 = (m.enqueueAll S hasAttribute ps).1
      ∧ (m.enqueueAll S hasAttribute ps).2.AlikeOn F (m'.enqueueAll S hasAttribute ps).2 := by
  induction ps generalizing m m' with
  | nil => exact ⟨rfl, ha⟩
  | cons p rest ih =>
      simp only [TaskManager.enqueueAll, ha.heap.objects.isAsynch, ha.heap.objects.statusAttrName]
      split
      · exact ⟨rfl, ha⟩
      · exact ih (ha.enqueue p)

end AlikeOn

structure SameOutcome {ρ : Type} (F : Objects) (r r' : ρ × Signals × TaskManager) : Prop where
  result : r'.1 = r.1
  signals : r'.2.1 = r.2.1
  manager : r.2.2.AlikeOn F r'.2.2

theorem AlikeOn.addTaskSequence (ha : m.AlikeOn F m') (hasAttribute : String → Bool)
    (taskSequence : Option TaskSequencePtr) (addToQueue : Bool) (signals : Signals) :
    SameOutcome F (m.addTaskSequence S hasAttribute taskSequence addToQueue signals)
      (m'.addTaskSequence S hasAttribute taskSequence addToQueue signals) := by
  cases taskSequence with
  | none => exact ⟨rfl, rfl, ha⟩
  | some q =>
      have hmax : m'.maxTasksInQueue = m.maxTasksInQueue :=
        congrArg Containers.maxTasksInQueue ha.containers
      simp only [TaskManager.addTaskSequence, ha.heap.objects.tasks, ha.taskQueue, hmax]
      split
      · exact ⟨rfl, rfl, ha⟩
      split
      · exact ⟨rfl, rfl, ha⟩
      cases addToQueue with
      | false =>
          refine ⟨rfl, rfl, ha.heap, ?_⟩
          simp only [Bool.false_eq_true, if_false, ha.containers]
      | true =>
          obtain ⟨hflag, hafter⟩ := ha.enqueueAll (S := S) hasAttribute (m.sequence q).tasks
          simp only [if_true]
          cases hleft : m.enqueueAll S hasAttribute (m.sequence q).tasks with
          | mk flag a =>
              cases hright : m'.enqueueAll S hasAttribute (m.sequence q).tasks with
              | mk flag' b =>
                  rw [hleft] at hflag hafter
                  rw [hright] at hflag hafter
                  obtain rfl : flag' = flag := hflag
                  cases flag' with
                  | false => exact ⟨rfl, rfl, hafter⟩
                  | true =>
                      have hcontainers : b.toContainers = a.toContainers := hafter.containers
                      refine ⟨rfl, rfl, hafter.heap, ?_⟩
                      simp only [hcontainers]

namespace AlikeOn

theorem findTaskSequence (ha : m.AlikeOn F m') :
    m'.findTaskSequence id name = m.findTaskSequence id name := by
  simp only [TaskManager.findTaskSequence, matchTaskSequenceByIdAndName, ha.taskSequences,
    ha.heap.objects.seqName, ha.heap.objects.seqId]

theorem isDependencyCompleted (ha : m.AlikeOn F m') (hw : m.Within F) (hq : q ∈ F.sequence)
    (index : Int) : m'.isDependencyCompleted q index = m.isDependencyCompleted q index := by
  unfold TaskManager.isDependencyCompleted
  rw [ha.heap.objects.tasks]
  split
  · rfl
  · split
    · rfl
    · rename_i p hp
      rw [ha.heap.task p (hw.closed q hq p (List.mem_of_getElem? hp))]

theorem isSequenceTaskRunnable (ha : m.AlikeOn F m') (hw : m.Within F) (hp : p ∈ F.task) :
    m'.isSequenceTaskRunnable p = m.isSequenceTaskRunnable p := by
  simp only [TaskManager.isSequenceTaskRunnable, ha.heap.task p hp, ha.findTaskSequence]
  split
  · rfl
  split
  · rfl
  split
  · rfl
  · rename_i q hfind
    have hq := hw.tracked q (List.mem_of_find?_eq_some hfind)
    rw [funext (ha.isDependencyCompleted hw hq)]

theorem isRunnable (ha : m.AlikeOn F m') (hw : m.Within F) (hp : p ∈ F.task) :
    m'.isRunnable now p = m.isRunnable now p := by
  simp only [TaskManager.isRunnable, ha.heap.task p hp, ha.isSequenceTaskRunnable hw hp]

theorem expire (ha : m.AlikeOn F m') (p : TaskPtr) : (m.expire p).AlikeOn F (m'.expire p) where
  heap := ha.heap.setStatus p _ _
  containers := ha.containers

theorem scanQueue (ha : m.AlikeOn F m') (hw : m.Within F) (hps : ∀ p ∈ ps, p ∈ F.task)
    (now : Clock) (waiting : Option TaskPtr) :
    (TaskManager.scanQueue now ps waiting m').runnable
        = (TaskManager.scanQueue now ps waiting m).runnable
      ∧ (TaskManager.scanQueue now ps waiting m').waiting
        = (TaskManager.scanQueue now ps waiting m).waiting
      ∧ (TaskManager.scanQueue now ps waiting m).manager.AlikeOn F
        (TaskManager.scanQueue now ps waiting m').manager := by
  induction ps generalizing waiting m m' with
  | nil => exact ⟨rfl, rfl, ha⟩
  | cons p rest ih =>
      have hp := hps p List.mem_cons_self
      have hrest : ∀ p' ∈ rest, p' ∈ F.task := fun p' hp' => hps p' (List.mem_cons_of_mem p hp')
      simp only [TaskManager.scanQueue, ha.isRunnable hw hp, ha.heap.task p hp]
      split
      · exact ⟨rfl, rfl, ha⟩
      split
      · have hexpire := Expiring.expire m p
        refine ih (ha.expire p) ⟨?_, ?_, hw.closed.of_sameObjects hexpire.objects⟩ hrest
          waiting
        · exact fun p' hp' => hw.queued p' (hexpire.taskQueue ▸ hp')
        · exact fun q hq => hw.tracked q (hexpire.taskSequences ▸ hq)
      split
      · exact ih ha hw hrest (some p)
      · exact ih ha hw hrest waiting

theorem popTask (ha : m.AlikeOn F m') (hw : m.Within F) (now : Clock) (signals : Signals) :
    SameOutcome F (m.popTask now signals) (m'.popTask now signals) := by
  unfold TaskManager.popTask
  rw [ha.taskQueue]
  split
  · exact ⟨rfl, rfl, ha⟩
  dsimp only
  split
  · exact ⟨rfl, rfl, ha⟩
  split
  · exact ⟨rfl, rfl, ha⟩
  have hremoved := ha.removeInQueue hw (matchTaskByStatus .expired)
  have hwithin : (m.removeInQueue (matchTaskByStatus .expired)).Within F :=
    hw.of_sublist List.filter_sublist (List.Sublist.refl _) (SameObjects.refl _)
  obtain ⟨hrunnable, hwaiting, hscan⟩ :=
    hremoved.scanQueue hwithin hwithin.queued now none
  rw [hremoved.taskQueue, hrunnable, hwaiting]
  split
  · rename_i p hp
    obtain ⟨front, back, hqueue, -⟩ := scanQueue_runnable hp
    have hp' := hwithin.queued p (by rw [hqueue]; simp)
    refine ⟨?_, rfl, hscan.heap, ?_⟩
    · simp only [hscan.heap.task p hp']
    · simp only [hscan.containers]
  · refine ⟨?_, rfl, hscan⟩
    simp only [timeToActivation, hscan.heap.objects.activationTimeout]
  · exact ⟨rfl, rfl, hscan⟩

theorem getTaskSequenceStatusInfo (ha : m.AlikeOn F m') (hw : m.Within F)
    (useDevAttrFilter : Bool) (devAttrName : String) :
    m'.getTaskSequenceStatusInfo useDevAttrFilter devAttrName
      = m.getTaskSequenceStatusInfo useDevAttrFilter devAttrName := by
  simp only [TaskManager.getTaskSequenceStatusInfo, ha.taskSequences]
  have hfilter : m.taskSequences.filter (fun q => !useDevAttrFilter
        || matchTaskSequenceByDevAttrName devAttrName (m'.sequence q))
      = m.taskSequences.filter fun q => !useDevAttrFilter
        || matchTaskSequenceByDevAttrName devAttrName (m.sequence q) :=
    List.filter_congr fun q hq => by rw [ha.heap.sequence q (hw.tracked q hq)]
  rw [hfilter]
  refine List.map_congr_left fun q hq => ?_
  rw [ha.heap.sequence q (hw.tracked q (List.mem_of_mem_filter hq))]

/-! ### Operations -/

theorem call (ha : m.AlikeOn F m') (hw : m.Within F) (r : Request) (signals : Signals) :
    SameOutcome F (m.call S r signals) (m'.call S r signals) := by
  have hremove : ∀ found, (m.removeInQueue found).Within F := fun found =>
    hw.of_sublist List.filter_sublist (List.Sublist.refl _) (SameObjects.refl _)
  cases r with
  | wakeUp => exact ⟨rfl, rfl, ha⟩
  | endThread => exact ⟨rfl, rfl, ha⟩
  | addTaskSequence hasAttribute taskSequence addToQueue =>
      exact ha.addTaskSequence hasAttribute taskSequence addToQueue signals
  | removeTaskSequence name =>
      exact ⟨rfl, rfl, (ha.removeInQueue hw _).removeSequences (hremove _) _⟩
  | revokeTaskSequence name =>
      refine ⟨rfl, rfl, (ha.removeInQueue hw _).foldl (hremove _) (fun a q => ?_) ?_⟩
      · split
        · exact SameObjects.refl a
        · exact sameObjects_cancelInSequence
      · intro a b q hagree hclosed hq
        rw [hagree.objects.seqName]
        split
        · exact hagree
        · exact hagree.cancelInSequence hclosed hq
  | revokeTask name =>
      refine ⟨rfl, rfl, (ha.removeInQueue hw _).foldl (hremove _)
        (fun _ _ => sameObjects_cancelInSequence) ?_⟩
      exact fun hagree hclosed hq => hagree.cancelInSequence hclosed hq
  | flushQueue => exact ⟨rfl, rfl, ha.heap, by simp only [TaskManager.call, flushQueue, ha.containers]⟩
  | setSequenceTaskStatus id name status info =>
      refine ⟨?_, rfl, ha.foldl hw (fun _ _ => sameObjects_setStatusInSequence) ?_⟩
      · simp only [TaskManager.call, setSequenceTaskStatus, ha.taskSequences,
          ha.heap.objects.findTask]
      · exact fun hagree hclosed _ => hagree.setStatusInSequence hclosed _
  | setAsynchTaskStatus attrName status info =>
      refine ⟨rfl, rfl, ha.foldl hw (fun _ _ => sameObjects_setAsynchTaskStatus) ?_⟩
      exact fun hagree hclosed _ => hagree.setAsynchTaskStatus hclosed _
  | clearAllSequenceTasks =>
      exact ⟨rfl, rfl, ha.heap, by simp only [TaskManager.call, clearAllSequenceTasks, ha.containers]⟩
  | clearSequenceTasks now historyTimeThr keepRunningTasks useUTC =>
      cases keepRunningTasks with
      | true => exact ⟨rfl, rfl, ha.removeSequences hw _⟩
      | false => exact ⟨rfl, rfl, ha.removeSequences hw _⟩
  | clearCompletedSequenceTasks now historyTimeThr useUTC =>
      exact ⟨rfl, rfl, ha.removeSequences hw _⟩
  | setMaxNTasksInQueue val =>
      exact ⟨rfl, rfl, ha.heap, by simp only [TaskManager.call, ha.containers]⟩
  | setMaxNTasksInCollection val =>
      exact ⟨rfl, rfl, ha.heap, by simp only [TaskManager.call, ha.containers]⟩

/-- **What an operation reads.** -/
theorem operate (ha : m.AlikeOn F m') (hw : m.Within F) (operation : Operation)
    (signals : Signals) :
    SameOutcome F (m.operate S operation signals) (m'.operate S operation signals) := by
  cases operation with
  | construct devName => exact ⟨rfl, rfl, ha.heap, rfl⟩
  | call r =>
      have hcall := ha.call (S := S) hw r signals
      exact ⟨congrArg OperationResult.code hcall.result, hcall.signals, hcall.manager⟩
  | popTask now =>
      have hpop := ha.popTask hw now signals
      exact ⟨congrArg OperationResult.popped hpop.result, hpop.signals, hpop.manager⟩
  | awake timedOut => exact ⟨rfl, rfl, ha⟩
  | getTaskSequenceStatusInfo useDevAttrFilter devAttrName =>
      refine ⟨?_, rfl, ha⟩
      simp only [TaskManager.operate, ha.getTaskSequenceStatusInfo hw]

end AlikeOn

end TaskManager

def Operation.given : Operation → Option TaskSequencePtr
  | .call (.addTaskSequence _ taskSequence _) => taskSequence
  | _ => none

/-- The tasks whose status an operation may change. -/
def TaskManager.WritesTask (m : TaskManager) : Operation → TaskPtr → Prop
  | .call (.addTaskSequence _ (some q) true), p => m.Accepts q ∧ p ∈ (m.sequence q).tasks
  | .call (.revokeTaskSequence name), p =>
      (∃ q ∈ m.taskSequences, (m.sequence q).seqName = name ∧ p ∈ (m.sequence q).tasks)
        ∧ (m.task p).status = .idle
  | .call (.revokeTask name), p =>
      (∃ q ∈ m.taskSequences, p ∈ (m.sequence q).tasks)
        ∧ (m.task p).cmdName = name ∧ (m.task p).status = .idle
  | .call (.setSequenceTaskStatus id name _ _), p =>
      ∃ q ∈ m.taskSequences, m.findTask q id name = some p
  | .call (.setAsynchTaskStatus attrName _ _), p =>
      ∃ q ∈ m.taskSequences, m.findAsynchTask q attrName = some p
  | .popTask now, p => p ∈ m.taskQueue ∧ (m.task p).isExpirationReached now = true
  | _, _ => False

namespace TaskManager

variable {S : SetImpl TaskPtr} {m : TaskManager} {signals : Signals} {now : Clock}
  {operation : Operation}

theorem taskQueue_popTask_sublist :
    (m.popTask now signals).2.2.taskQueue.Sublist m.taskQueue := by
  obtain ⟨_, _, -, heq⟩ | ⟨m', hm', ⟨_, _, -, heq⟩ | ⟨p, _, _, _, -, -, -, heq⟩⟩ :=
    m.popTask_cases now signals
  · rw [heq]
  · rw [heq, hm'.taskQueue]
    exact List.filter_sublist
  · rw [heq]
    refine List.erase_sublist.trans ?_
    rw [hm'.taskQueue]
    exact List.filter_sublist

theorem taskSequences_popTask : (m.popTask now signals).2.2.taskSequences = m.taskSequences := by
  obtain ⟨_, _, -, heq⟩ | ⟨m', hm', ⟨_, _, -, heq⟩ | ⟨p, _, _, _, -, -, -, heq⟩⟩ :=
    m.popTask_cases now signals
  · rw [heq]
  · rw [heq, hm'.taskSequences]
    rfl
  · rw [heq]
    exact hm'.taskSequences

theorem sameObjects_popTask : SameObjects m.toHeap (m.popTask now signals).2.2.toHeap := by
  obtain ⟨_, _, -, heq⟩ | ⟨m', hm', ⟨_, _, -, heq⟩ | ⟨p, _, _, _, -, -, -, heq⟩⟩ :=
    m.popTask_cases now signals
  · rw [heq]
    exact SameObjects.refl _
  · rw [heq]
    exact hm'.objects
  · rw [heq]
    exact hm'.objects

theorem Within.addTaskSequence (hw : m.Within F) {taskSequence : Option TaskSequencePtr}
    (hgiven : ∀ q ∈ taskSequence, q ∈ F.sequence) (hasAttribute : String → Bool)
    (addToQueue : Bool) :
    (m.addTaskSequence S hasAttribute taskSequence addToQueue signals).2.2.Within F := by
  have hqueue : ∀ ps, (∀ p ∈ ps, p ∈ F.task) → ∀ p ∈ (m.enqueueTasks S ps).taskQueue,
      p ∈ F.task := by
    intro ps hps p hp
    obtain hp | hp := List.mem_append.mp ((enqueued_enqueueTasks ps m).subset hp)
    · exact hps p hp
    · exact hw.queued p hp
  obtain ⟨-, heq⟩ | ⟨q, front, p, back, rfl, -, -, htasks, -, -, -, heq⟩ | ⟨q, rfl, -, -, heq⟩ :=
    m.addTaskSequence_cases (S := S) hasAttribute taskSequence addToQueue signals
  · rw [heq]
    exact hw
  · rw [heq]
    have hadded := enqueued_enqueueTasks (S := S) front m
    refine ⟨hqueue front fun p' hp' => ?_, ?_, hw.closed.of_sameObjects hadded.objects⟩
    · exact hw.closed q (hgiven q rfl) p' (by simp [htasks, hp'])
    · rw [hadded.taskSequences]
      exact hw.tracked
  · rw [heq]
    have hadded := enqueued_enqueueTasks (S := S)
      (if addToQueue then (m.sequence q).tasks else []) m
    refine ⟨hqueue _ fun p hp => ?_, fun q' hq' => ?_, hw.closed.of_sameObjects hadded.objects⟩
    · cases addToQueue with
      | true => exact hw.closed q (hgiven q rfl) p hp
      | false => exact absurd hp List.not_mem_nil
    · obtain hq' | hq' := List.mem_append.mp hq'
      · exact hw.tracked q' hq'
      · exact hgiven q' (List.mem_singleton.mp hq' ▸ rfl)

theorem Within.operate (hw : m.Within F) (hgiven : ∀ q ∈ operation.given, q ∈ F.sequence)
    (signals : Signals) :
    (m.operate S operation signals).2.2.Within F := by
  cases operation with
  | construct devName =>
      exact ⟨fun _ hp => absurd hp List.not_mem_nil, fun _ hq => absurd hq List.not_mem_nil, hw.closed⟩
  | popTask now =>
      have hsequences : (m.popTask now signals).2.2.taskSequences.Sublist m.taskSequences := by
        rw [taskSequences_popTask]
      exact hw.of_sublist taskQueue_popTask_sublist hsequences sameObjects_popTask
  | awake timedOut => exact hw
  | getTaskSequenceStatusInfo useDevAttrFilter devAttrName => exact hw
  | call r =>
      by_cases hr : ∃ hasAttribute taskSequence addToQueue,
          r = .addTaskSequence hasAttribute taskSequence addToQueue
      · obtain ⟨hasAttribute, taskSequence, addToQueue, rfl⟩ := hr
        exact hw.addTaskSequence hgiven hasAttribute addToQueue
      · have hnot : ∀ hasAttribute q addToQueue,
            r ≠ .addTaskSequence hasAttribute (some q) addToQueue :=
          fun hasAttribute q addToQueue heq => hr ⟨hasAttribute, some q, addToQueue, heq⟩
        obtain ⟨hqueue, hsequences⟩ := call_sublist (S := S) (m := m) hnot
        exact hw.of_sublist hqueue hsequences (sameObjects_call r)

/-! ### What an operation writes -/

theorem agreeOn_enqueueTasks (hps : ∀ p ∈ ps, p ∉ F.task) :
    AgreeOn F m.toHeap (m.enqueueTasks S ps).toHeap := by
  induction ps generalizing m with
  | nil => exact AgreeOn.refl F m.toHeap
  | cons p rest ih =>
      have hhead : AgreeOn F m.toHeap (m.enqueue S p).toHeap :=
        AgreeOn.updateTask_left (hps p List.mem_cons_self) (fun t => { t with status := .idle })
          fun _ => rfl
      exact hhead.trans (ih fun p' hp' => hps p' (List.mem_cons_of_mem p hp'))

theorem agreeOn_scanQueue (ps : List TaskPtr) (now : Clock) (waiting : Option TaskPtr)
    (hps : ∀ p ∈ ps, (m.task p).isExpirationReached now = true → p ∉ F.task) :
    AgreeOn F m.toHeap (scanQueue now ps waiting m).manager.toHeap := by
  induction ps generalizing waiting m with
  | nil => exact AgreeOn.refl F m.toHeap
  | cons p rest ih =>
      have hrest : ∀ p' ∈ rest, (m.task p').isExpirationReached now = true → p' ∉ F.task :=
        fun p' hp' => hps p' (List.mem_cons_of_mem p hp')
      simp only [scanQueue]
      split
      · exact AgreeOn.refl F m.toHeap
      split
      · rename_i hexpired
        have hmark : AgreeOn F m.toHeap (m.expire p).toHeap :=
          AgreeOn.setStatus_left (hps p List.mem_cons_self hexpired)
        refine hmark.trans (ih waiting fun p' hp' hreached => hrest p' hp' ?_)
        rwa [(Expiring.expire m p).objects.isExpirationReached] at hreached
      split
      · exact ih (some p) hrest
      · exact ih waiting hrest

theorem agreeOn_popTask
    (hnot : ∀ p ∈ m.taskQueue, (m.task p).isExpirationReached now = true → p ∉ F.task) :
    AgreeOn F m.toHeap (m.popTask now signals).2.2.toHeap := by
  have hscan := agreeOn_scanQueue (F := F) (m := m.removeInQueue (matchTaskByStatus .expired))
    (m.removeInQueue (matchTaskByStatus .expired)).taskQueue now none
    fun p hp => hnot p (List.mem_of_mem_filter hp)
  unfold popTask
  split
  · exact AgreeOn.refl F m.toHeap
  dsimp only
  split
  · exact AgreeOn.refl F m.toHeap
  split
  · exact AgreeOn.refl F m.toHeap
  split
  · exact hscan
  · exact hscan
  · exact hscan

theorem idle_of_cancelInSequence {h : Heap}
    (hidle : ((cancelInSequence selected h q).task p).status = .idle) :
    (h.task p).status = .idle := by
  rw [status_cancelInSequence] at hidle
  split at hidle
  · exact TaskStatus.noConfusion hidle
  · exact hidle

/-- A loop over the tracked sequences that cancels tasks. -/
theorem agreeOn_foldl_cancel {f : Heap → TaskSequencePtr → Heap}
    (hf : ∀ a q, q ∈ m.taskSequences → SameObjects m.toHeap a →
      (∀ p, (a.task p).status = .idle → (m.task p).status = .idle) →
        AgreeOn F a (f a q) ∧ ∀ p, ((f a q).task p).status = .idle → (a.task p).status = .idle) :
    AgreeOn F m.toHeap (m.taskSequences.foldl f m.toHeap) := by
  refine (List.foldlRecOn (motive := fun a => AgreeOn F m.toHeap a
    ∧ ∀ p, (a.task p).status = .idle → (m.task p).status = .idle) _ _
    ⟨AgreeOn.refl F m.toHeap, fun _ hidle => hidle⟩ ?_).1
  rintro a ⟨hagree, hidle⟩ q hq
  obtain ⟨hround, hkept⟩ := hf a q hq hagree.objects hidle
  exact ⟨hagree.trans hround, fun p hp => hidle p (hkept p hp)⟩

theorem agreeOn_call {r : Request} (hclosed : F.Closed m.toHeap)
    (hnot : ∀ p, m.WritesTask (.call r) p → p ∉ F.task) :
    AgreeOn F m.toHeap (m.call S r signals).2.2.toHeap := by
  cases r with
  | addTaskSequence hasAttribute taskSequence addToQueue =>
      simp only [call]
      obtain ⟨-, heq⟩ | ⟨q, front, p, back, rfl, haccepts, rfl, htasks, -, -, -, heq⟩
        | ⟨q, rfl, haccepts, -, heq⟩ :=
        m.addTaskSequence_cases (S := S) hasAttribute taskSequence addToQueue signals
      · rw [heq]
        exact AgreeOn.refl F m.toHeap
      · rw [heq]
        exact agreeOn_enqueueTasks fun p' hp' => hnot p' ⟨haccepts, by simp [htasks, hp']⟩
      · rw [heq]
        cases addToQueue with
        | true => exact agreeOn_enqueueTasks fun p' hp' => hnot p' ⟨haccepts, hp'⟩
        | false => exact AgreeOn.refl F m.toHeap
  | revokeTaskSequence name =>
      refine agreeOn_foldl_cancel fun a q hq hobjects hidle => ?_
      split
      · exact ⟨AgreeOn.refl F a, fun _ hp => hp⟩
      · rename_i hname
        rw [hobjects.seqName] at hname
        refine ⟨AgreeOn.cancelInSequence_left (hclosed.of_sameObjects hobjects) ?_,
          fun p => idle_of_cancelInSequence⟩
        intro p hp hp' _
        rw [hobjects.tasks] at hp
        exact hnot p ⟨⟨q, hq, not_not.mp hname, hp⟩, hidle p hp'⟩
  | revokeTask name =>
      refine agreeOn_foldl_cancel fun a q hq hobjects hidle => ?_
      refine ⟨AgreeOn.cancelInSequence_left (hclosed.of_sameObjects hobjects) ?_,
        fun p => idle_of_cancelInSequence⟩
      intro p hp hp' hselected
      have hname : (a.task p).cmdName = name := by simpa [matchTaskByName] using hselected
      rw [hobjects.tasks] at hp
      rw [hobjects.cmdName] at hname
      exact hnot p ⟨⟨q, hq, hp⟩, hname, hidle p hp'⟩
  | setSequenceTaskStatus id name status info =>
      refine List.foldlRecOn (motive := AgreeOn F m.toHeap) _ _ (AgreeOn.refl F m.toHeap) ?_
      intro a hagree q hq
      refine hagree.trans (AgreeOn.setStatusInSequence_left
        (hclosed.of_sameObjects hagree.objects) fun p hfind => hnot p ⟨q, hq, ?_⟩)
      rwa [hagree.objects.findTask] at hfind
  | setAsynchTaskStatus attrName status info =>
      refine List.foldlRecOn (motive := AgreeOn F m.toHeap) _ _ (AgreeOn.refl F m.toHeap) ?_
      intro a hagree q hq
      refine hagree.trans (AgreeOn.setAsynchTaskStatus_left
        (hclosed.of_sameObjects hagree.objects) fun p hfind => hnot p ⟨q, hq, ?_⟩)
      rwa [hagree.objects.findAsynchTask] at hfind
  | clearSequenceTasks now historyTimeThr keepRunningTasks useUTC =>
      cases keepRunningTasks <;> exact AgreeOn.refl F m.toHeap
  | _ => exact AgreeOn.refl F m.toHeap

/-- **What an operation writes.** Of the objects it leaves alone every task that it does not write
to, and every sequence without such a task. -/
theorem agreeOn_operate (hclosed : F.Closed m.toHeap)
    (hnot : ∀ p, m.WritesTask operation p → p ∉ F.task) :
    AgreeOn F m.toHeap (m.operate S operation signals).2.2.toHeap := by
  cases operation with
  | call r => exact agreeOn_call hclosed hnot
  | popTask now => exact agreeOn_popTask fun p hp hexpired => hnot p ⟨hp, hexpired⟩
  | _ => exact AgreeOn.refl F m.toHeap

end TaskManager

end DshLmc
