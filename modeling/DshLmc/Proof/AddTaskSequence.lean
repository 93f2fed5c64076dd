import DshLmc.Proof.Building
import DshLmc.Proof.Methods

/-!
# A sequence that is not added

`AddTaskSequence` puts the tasks into the queue one after the other and makes them `IDLE`. When it
comes to a task it refuses it returns -1 at once, and what it has done before stays. So a call that
returns -1 has changed nothing exactly when there was nothing to do before that task.
-/

namespace DshLmc

namespace TaskManager

variable {S : SetImpl TaskPtr} {m : TaskManager} {p : TaskPtr} {ps : List TaskPtr}
  {hasAttribute : String → Bool}

/-- When the call returns -1, the queue, the collection and the statuses of all tasks are as they
were. -/
def AddsAtomically (S : SetImpl TaskPtr) (hasAttribute : String → Bool)
    (taskSequence : Option TaskSequencePtr) (addToQueue : Bool) (signals : Signals)
    (m : TaskManager) : Prop :=
  let (code, _, m') := m.addTaskSequence S hasAttribute taskSequence addToQueue signals
  code = -1 → m'.taskQueue = m.taskQueue ∧ m'.taskSequences = m.taskSequences
    ∧ ∀ p, (m'.task p).status = (m.task p).status

instance (m : TaskManager) (hasAttribute : String → Bool) :
    DecidablePred (m.Refuses hasAttribute) := fun p => by
  unfold Refuses
  infer_instance

/-- Queueing the task does nothing: it is `IDLE`, and the set has one that compares equivalent. -/
def Settled (S : SetImpl TaskPtr) (m : TaskManager) (p : TaskPtr) : Prop :=
  (m.task p).status = .idle ∧ S.insert m.less p m.taskQueue = m.taskQueue

/-- The condition on a call that starts to queue a sequence: the tasks before the first one that is
refused are settled. -/
def StopsInTime (S : SetImpl TaskPtr) (hasAttribute : String → Bool)
    (taskSequence : Option TaskSequencePtr) (addToQueue : Bool) (m : TaskManager) : Prop :=
  ∀ q, taskSequence = some q → m.Accepts q → addToQueue = true →
    ∀ front p back, (m.sequence q).tasks = front ++ p :: back →
      (∀ p' ∈ front, ¬ m.Refuses hasAttribute p') → m.Refuses hasAttribute p →
        ∀ p' ∈ front, m.Settled S p'

theorem length_taskQueue_enqueue :
    (m.enqueue S p).taskQueue = m.taskQueue
      ∨ (m.enqueue S p).taskQueue.length = m.taskQueue.length + 1 := by
  obtain ⟨heq, -⟩ | ⟨front, back, hl, heq⟩ := S.insert_cases m.less p m.taskQueue
  · exact Or.inl heq
  · right
    change (S.insert m.less p m.taskQueue).length = _
    rw [heq, hl]
    simp only [List.length_append, List.length_cons]
    omega

theorem length_le_enqueueTasks : m.taskQueue.length ≤ (m.enqueueTasks S ps).taskQueue.length := by
  induction ps generalizing m with
  | nil => exact le_rfl
  | cons p rest ih =>
      refine le_trans ?_ (ih (m := m.enqueue S p))
      obtain heq | hlength := length_taskQueue_enqueue (S := S) (m := m) (p := p)
      · rw [heq]
      · omega

/-- The queue is unchanged only when the set refuses every one of the tasks. -/
theorem taskQueue_enqueueTasks_eq_iff :
    (m.enqueueTasks S ps).taskQueue = m.taskQueue
      ↔ ∀ p ∈ ps, S.insert m.less p m.taskQueue = m.taskQueue := by
  induction ps generalizing m with
  | nil => simp [enqueueTasks]
  | cons p rest ih =>
      have hless : (m.enqueue S p).less = m.less := by
        funext a b
        exact (sameObjects_enqueue (S := S) (m := m) (p := p)).compareTask a b
      rw [List.forall_mem_cons]
      obtain heq | hlength := length_taskQueue_enqueue (S := S) (m := m) (p := p)
      · have hrest := ih (m := m.enqueue S p)
        rw [hless, heq] at hrest
        exact hrest.trans (and_iff_right heq).symm
      · refine iff_of_false (fun hsame => ?_) fun hall => ?_
        · have hle : (m.enqueue S p).taskQueue.length
              ≤ ((m.enqueue S p).enqueueTasks S rest).taskQueue.length := length_le_enqueueTasks
          have hsame' : ((m.enqueue S p).enqueueTasks S rest).taskQueue = m.taskQueue := hsame
          rw [hsame', hlength] at hle
          omega
        · have heq : (m.enqueue S p).taskQueue = m.taskQueue := hall.1
          rw [heq] at hlength
          omega

theorem enqueueTasks_unchanged_iff :
    ((m.enqueueTasks S ps).taskQueue = m.taskQueue
        ∧ (m.enqueueTasks S ps).taskSequences = m.taskSequences
        ∧ ∀ p, ((m.enqueueTasks S ps).task p).status = (m.task p).status)
      ↔ ∀ p ∈ ps, m.Settled S p := by
  have hqueued : Enqueued ps m (m.enqueueTasks S ps) := enqueued_enqueueTasks ps m
  have hstatus : (∀ p, ((m.enqueueTasks S ps).task p).status = (m.task p).status)
      ↔ ∀ p ∈ ps, (m.task p).status = .idle := by
    constructor
    · intro hall p hp
      rw [← hall p, hqueued.status p, if_pos hp]
    · intro hidle p
      rw [hqueued.status p]
      split
      case isTrue hp => exact (hidle p hp).symm
      case isFalse => rfl
  rw [hstatus, taskQueue_enqueueTasks_eq_iff]
  constructor
  · rintro ⟨hkept, -, hidle⟩ p hp
    exact ⟨hidle p hp, hkept p hp⟩
  · intro hsettled
    exact ⟨fun p hp => (hsettled p hp).2, hqueued.taskSequences, fun p hp => (hsettled p hp).1⟩

/-- **When a refused sequence leaves everything as it was.** -/
theorem addsAtomically_iff_stopsInTime (S : SetImpl TaskPtr) (hasAttribute : String → Bool)
    (taskSequence : Option TaskSequencePtr) (addToQueue : Bool) (signals : Signals)
    (m : TaskManager) :
    m.AddsAtomically S hasAttribute taskSequence addToQueue signals
      ↔ m.StopsInTime S hasAttribute taskSequence addToQueue := by
  obtain ⟨hrejects, heq⟩ | ⟨q, front, p, back, rfl, haccepts, rfl, htasks, hfront, hasynch, hattr,
      heq⟩ | ⟨q, rfl, haccepts, hall, heq⟩ :=
    addTaskSequence_cases (S := S) hasAttribute taskSequence addToQueue signals m
  · rw [AddsAtomically, heq]
    refine iff_of_true (fun _ => ⟨rfl, rfl, fun _ => rfl⟩) ?_
    intro q hq haccepts
    exact absurd haccepts (hrejects q hq)
  · have hnot : ∀ p' ∈ front, ¬ m.Refuses hasAttribute p' := by
      intro p' hp' hrefuses
      have hpresent := hfront p' hp' hrefuses.1
      rw [hrefuses.2] at hpresent
      exact Bool.noConfusion hpresent
    rw [AddsAtomically, heq]
    refine (imp_iff_right rfl).trans (enqueueTasks_unchanged_iff.trans ⟨fun hsettled => ?_, ?_⟩)
    · rintro q' hq' - - front' p' back' htasks' hfront' hrefuses'
      obtain rfl := Option.some.inj hq'
      -- Both splits are at the first task that is refused.
      have hsame : front' = front := by
        have hwhile : ∀ {front back : List TaskPtr} {p : TaskPtr},
            (m.sequence q).tasks = front ++ p :: back →
            (∀ p' ∈ front, ¬ m.Refuses hasAttribute p') → m.Refuses hasAttribute p →
            (m.sequence q).tasks.takeWhile (fun p => !decide (m.Refuses hasAttribute p))
              = front := by
          intro front back p htasks hfront hrefuses
          rw [htasks, List.takeWhile_append_of_pos (by simpa using hfront),
            List.takeWhile_cons_of_neg (by simpa using hrefuses), List.append_nil]
        rw [← hwhile htasks' hfront' hrefuses', hwhile htasks hnot ⟨hasynch, hattr⟩]
      rw [hsame]
      exact hsettled
    · intro hstops
      exact hstops q rfl haccepts rfl front p back htasks hnot ⟨hasynch, hattr⟩
  · rw [AddsAtomically, heq]
    refine iff_of_true (fun hcode => absurd hcode (by decide)) ?_
    rintro q' hq' - rfl front p back htasks - ⟨hasynch, hattr⟩
    obtain rfl := Option.some.inj hq'
    have hpresent := hall rfl p (by simp [htasks]) hasynch
    rw [hattr] at hpresent
    exact Bool.noConfusion hpresent

end TaskManager

/-- A task, and after it one that is followed through an attribute. -/
def Heap.slewThenLock : Heap :=
  Heap.blank.buildSequence 0 (TaskSequence.create Clock.origin "s-1" "pointing" false)
    [(0, Task.create Clock.origin "t-1" "Slew" 0 false),
      (1, (Task.create Clock.origin "t-2" "Lock" 0 false).setAsynchTask "lockStatus")]

/-- The device lacks the attribute, and the first task stays in the queue. -/
theorem TaskManager.not_addsAtomically_slewThenLock :
    ¬ TaskManager.AddsAtomically SetImpl.linear (fun _ => false) (some 0) true
      TaskManager.createSignals (TaskManager.create Heap.slewThenLock "dish") := by
  intro hadds
  have hqueue := (hadds rfl).1
  revert hqueue
  decide

end DshLmc
