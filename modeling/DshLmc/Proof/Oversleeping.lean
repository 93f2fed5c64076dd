import DshLmc.Proof.Popping
import DshLmc.Proof.QueueOrder
import DshLmc.Proof.Scheduling

/-!
# How long PopTask sleeps

When no task may run, `PopTask` sleeps until the first task of the queue that waits for its activation
is activated. The queue has tasks that depend on others at the time at which they are expected to
start, and these may be activated long before. The others are at their activation times.
-/

namespace DshLmc.TaskManager

variable {m : TaskManager} {now : Clock} {signals : Signals} {p : TaskPtr}

/-- The task is neither `EXPIRED` nor timed out, and waits for its activation. -/
def waits (now : Clock) (m : TaskManager) (p : TaskPtr) : Bool :=
  (m.task p).status != .expired && !(m.task p).isExpirationReached now
    && (m.task p).isWaitingForActivation now

/-- The sleep is not longer than the time left to the activation of any task that waits. -/
def NeverOversleeps (now : Clock) (m : TaskManager) : Prop :=
  ∀ signals time, (m.popTask now signals).1 = .sleeping time →
    ∀ p ∈ m.taskQueue, m.waits now p = true → time ≤ m.timeToActivation now p

theorem scanQueue_of_none {ps : List TaskPtr} (waiting : Option TaskPtr)
    (hnone : ∀ p ∈ ps, m.isRunnable now p = false) :
    (scanQueue now ps waiting m).runnable = none
      ∧ (scanQueue now ps waiting m).waiting = waiting.or (ps.find? fun p =>
        !(m.task p).isExpirationReached now && (m.task p).isWaitingForActivation now) := by
  induction ps generalizing waiting m with
  | nil => exact ⟨rfl, by simp [scanQueue]⟩
  | cons p rest ih =>
      obtain ⟨hp, hrest⟩ := List.forall_mem_cons.mp hnone
      rw [scanQueue, hp]
      simp only [Bool.false_eq_true, if_false]
      cases hexpired : (m.task p).isExpirationReached now with
      | true =>
          have hmarked := Expiring.expire m p
          have hrest' : ∀ p' ∈ rest, (m.expire p).isRunnable now p' = false := by
            intro p' hp'
            rw [← Bool.not_eq_true]
            exact fun hrun => absurd (hmarked.isRunnable hrun) (by simp [hrest p' hp'])
          obtain ⟨hrunnable, hwaiting⟩ := ih waiting hrest'
          refine ⟨hrunnable, ?_⟩
          rw [if_pos rfl, hwaiting, List.find?_cons_of_neg (by simp [hexpired])]
          simp only [hmarked.objects.isExpirationReached, hmarked.objects.isWaitingForActivation]
      | false =>
          simp only [Bool.false_eq_true, if_false]
          cases hwaits : (m.task p).isWaitingForActivation now with
          | false =>
              simp only [Bool.false_and, Bool.false_eq_true, if_false]
              rw [List.find?_cons_of_neg (by simp [hwaits])]
              exact ih waiting hrest
          | true =>
              rw [List.find?_cons_of_pos (by simp [hexpired, hwaits])]
              cases waiting with
              | none => exact ih (some p) hrest
              | some first => exact ih (some first) hrest

/-- **When PopTask sleeps**: until the activation of the first task that waits. -/
theorem popTask_sleeping_iff (hnone : ∀ p ∈ m.taskQueue, m.isRunnable now p = false) {time : Int} :
    (m.popTask now signals).1 = .sleeping time
      ↔ signals.endSignal = false
        ∧ ∃ p, m.taskQueue.find? (m.waits now) = some p ∧ time = m.timeToActivation now p := by
  by_cases hempty : m.taskQueue = []
  · refine iff_of_false ?_ ?_
    · simp only [popTask, hempty, List.isEmpty_nil]
      split
      · simp
      · split <;> simp
    · rintro ⟨-, p, hp, -⟩
      simp [hempty] at hp
  cases hend : signals.endSignal with
  | true =>
      refine iff_of_false ?_ (by simp)
      simp only [popTask, hend, Bool.or_true, Bool.not_true, Bool.false_eq_true, if_false, if_true]
      simp
  | false =>
      set m' := m.removeInQueue (matchTaskByStatus .expired) with hm'
      obtain ⟨hrunnable, hwaiting⟩ := @scanQueue_of_none m' now m'.taskQueue none
        fun p hp => hnone p (List.mem_of_mem_filter hp)
      have hfind : m'.taskQueue.find? (fun p =>
          !(m'.task p).isExpirationReached now && (m'.task p).isWaitingForActivation now)
            = m.taskQueue.find? (m.waits now) := by
        rw [hm', removeInQueue, List.find?_filter]
        refine congrArg (fun waits => m.taskQueue.find? waits) (funext fun p => ?_)
        rw [Bool.eq_iff_iff]
        simp [waits, matchTaskByStatus, and_assoc]
      have hobjects := (expiring_scanQueue now m'.taskQueue none m').objects
      have htime : ∀ p, (scanQueue now m'.taskQueue none m').manager.timeToActivation now p
          = m.timeToActivation now p := by
        intro p
        rw [timeToActivation, timeToActivation, hobjects.activationTimeout]
        rfl
      rw [hfind, Option.none_or] at hwaiting
      have hnonempty : m.taskQueue.isEmpty = false := by simpa using hempty
      rw [popTask]
      simp only [hend, hnonempty, Bool.false_eq_true, if_false]
      rw [← hm', hrunnable, hwaiting]
      cases m.taskQueue.find? (m.waits now) with
      | none => simp
      | some p => simp [htime, eq_comm]

/-- Of the tasks that wait, the first one in the queue has no more time left than any other. -/
def EarliestFirst (now : Clock) (m : TaskManager) : Prop :=
  ∀ first, m.taskQueue.find? (m.waits now) = some first →
    ∀ p ∈ m.taskQueue, m.waits now p = true →
      m.timeToActivation now first ≤ m.timeToActivation now p

def InOrder (m : TaskManager) : Prop := m.taskQueue.Pairwise fun p p' => m.less p' p = false

/-- The tasks that wait are armed for their activation times, seen on one clock, and none is expected
to start before its own activation. -/
structure ArmedInTime (now : Clock) (useUTC : Bool) (m : TaskManager) : Prop where
  armed : ∀ p ∈ m.taskQueue, m.waits now p = true → (m.task p).hasActivationTime = true
    ∧ m.timeToActivation now p = (m.task p).activationTime - now.current useUTC
  expected : ∀ p ∈ m.taskQueue, (m.task p).dependOnSequenceTasks = true →
    (m.task p).hasActivationTime = true →
    (m.task p).activationTime ≤ (m.task p).expMaxActivationTime

/-- No task that depends on others and waits is to be activated before the first one that waits. -/
def DependentsLater (now : Clock) (m : TaskManager) : Prop :=
  ∀ first, m.taskQueue.find? (m.waits now) = some first →
    ∀ p ∈ m.taskQueue, m.waits now p = true → (m.task p).dependOnSequenceTasks = true →
      (m.task first).activationTime ≤ (m.task p).activationTime

/-- A task that depends on no other is not activated before the tasks in front of it. -/
theorem activationTime_le_of_less {t t' : Task} (hless : compareTask t' t = false)
    (hfree : t'.dependOnSequenceTasks = false) (hactive : t.hasActivationTime = true)
    (hactive' : t'.hasActivationTime = true)
    (hexpected : t.dependOnSequenceTasks = true → t.activationTime ≤ t.expMaxActivationTime) :
    t.activationTime ≤ t'.activationTime := by
  have hkey : t.key ≤ t'.key := by
    have hnotDirect : DshLmc.dependsDirectly t' t = false := by
      simp [DshLmc.dependsDirectly, Task.dependOnTask, hfree]
    rw [compareTask_eq_overrideLt, overrideLt, hnotDirect] at hless
    simp only [Bool.false_eq_true, if_false] at hless
    split at hless
    · cases hless
    · exact not_lt.mp (of_decide_eq_false hless)
  have hstart : (t.activationTime : WithBot Time) ≤ t.expectedStart := by
    rw [Task.expectedStart]
    cases hdepends : t.dependOnSequenceTasks with
    | false => rw [if_neg (by decide), if_pos hactive]
    | true => exact WithBot.coe_le_coe.mpr (hexpected hdepends)
  have hstart' : t'.expectedStart = (t'.activationTime : WithBot Time) := by
    rw [Task.expectedStart, hfree, if_neg (by decide), if_pos hactive']
  refine WithBot.coe_le_coe.mp ?_
  calc (t.activationTime : WithBot Time) ≤ t.expectedStart := hstart
    _ ≤ t'.expectedStart := Prod.Lex.monotone_fst _ _ hkey
    _ = t'.activationTime := hstart'

/-- In a queue in order a task that depends on no other does not wait for less than the first. -/
theorem activationTime_le_of_inOrder {useUTC : Bool} {first : TaskPtr} (horder : m.InOrder)
    (harmed : m.ArmedInTime now useUTC) (hfirst : m.taskQueue.find? (m.waits now) = some first)
    (hp : p ∈ m.taskQueue) (hwaits : m.waits now p = true)
    (hfree : (m.task p).dependOnSequenceTasks = false) :
    (m.task first).activationTime ≤ (m.task p).activationTime := by
  obtain ⟨hfirstWaits, front, back, hqueue, hfront⟩ := List.find?_eq_some_iff_append.mp hfirst
  rw [hqueue, List.mem_append] at hp
  obtain hmem | hmem := hp
  · have hnot := hfront p hmem
    simp [hwaits] at hnot
  obtain rfl | hmem := List.mem_cons.mp hmem
  · exact le_rfl
  have hin : first ∈ m.taskQueue := List.mem_of_find?_eq_some hfirst
  have hin' : p ∈ m.taskQueue := by
    rw [hqueue]
    simp [hmem]
  have hless : m.less p first = false := by
    rw [InOrder, hqueue] at horder
    exact (List.pairwise_cons.mp (List.pairwise_append.mp horder).2.1).1 p hmem
  have hactive := (harmed.armed first hin hfirstWaits).1
  exact activationTime_le_of_less hless hfree hactive (harmed.armed p hin' hwaits).1
    fun hdepends => harmed.expected first hin hdepends hactive

/-- **When PopTask does not oversleep**: the first task that waits is the earliest. In a queue in
order, with timeouts armed in time, that is a condition on the tasks that depend on others. -/
theorem neverOversleeps_iff (now : Clock) (m : TaskManager)
    (hnone : ∀ p ∈ m.taskQueue, m.isRunnable now p = false) :
    (m.NeverOversleeps now ↔ m.EarliestFirst now)
      ∧ ∀ useUTC, m.InOrder → m.ArmedInTime now useUTC →
        (m.EarliestFirst now ↔ m.DependentsLater now) := by
  constructor
  · constructor
    · intro hnever first hfirst p hp hwaits
      let quiet : Signals := { wakeUpSignal := false, endSignal := false }
      have hsleeps : (m.popTask now quiet).1 = .sleeping (m.timeToActivation now first) :=
        (popTask_sleeping_iff hnone).mpr ⟨rfl, first, hfirst, rfl⟩
      exact hnever quiet _ hsleeps p hp hwaits
    · intro hearliest signals time hsleeps p hp hwaits
      obtain ⟨-, first, hfirst, rfl⟩ := (popTask_sleeping_iff hnone).mp hsleeps
      exact hearliest first hfirst p hp hwaits
  · intro useUTC horder harmed
    have htime : ∀ first, m.taskQueue.find? (m.waits now) = some first → ∀ p ∈ m.taskQueue,
        m.waits now p = true → (m.timeToActivation now first ≤ m.timeToActivation now p
          ↔ (m.task first).activationTime ≤ (m.task p).activationTime) := by
      intro first hfirst p hp hwaits
      have hin := List.mem_of_find?_eq_some hfirst
      rw [(harmed.armed first hin (List.find?_some hfirst)).2, (harmed.armed p hp hwaits).2]
      exact Int.sub_le_sub_right_iff
    constructor
    · intro hearliest first hfirst p hp hwaits _
      exact (htime first hfirst p hp hwaits).mp (hearliest first hfirst p hp hwaits)
    · intro hlater first hfirst p hp hwaits
      rw [htime first hfirst p hp hwaits]
      cases hdepends : (m.task p).dependOnSequenceTasks with
      | false => exact activationTime_le_of_inOrder horder harmed hfirst hp hwaits hdepends
      | true => exact hlater first hfirst p hp hwaits hdepends

/-- A long task, one that depends on it and is to be activated after 50 seconds, and in another sequence
one that is to be activated after 100 seconds. -/
def lateDependent : Heap :=
  ((Heap.blank.buildSequence 0 (TaskSequence.create Clock.origin "s-1" "observe" true)
      [(0, ((Task.create Clock.origin "t-1" "Slew" 0 true).setMaxDuration Clock.origin 200000 0 0).2),
        (1, ((Task.create Clock.origin "t-2" "Track" 0 true).setActivationTime Clock.origin
          50000000).2)]).buildSequence 1
    (TaskSequence.create Clock.origin "s-2" "park" true)
    [(2, ((Task.create Clock.origin "t-3" "Stow" 0 true).setActivationTime Clock.origin
      100000000).2)]).withDependency Clock.origin 0 [[], [0]]

/-- Both sequences are added, and the long task completes early. -/
def completedEarly : TaskManager :=
  (run (System.step SetImpl.linear) (System.create lateDependent "dish")
    [.request (.addTaskSequence (fun _ => true) (some 0) true),
      .request (.addTaskSequence (fun _ => true) (some 1) true),
      .worker (.popTask Clock.origin), .worker (.runTask .done), .worker .reportTask]).manager

theorem neverOversleeps_iff_completedEarly :
    (completedEarly.NeverOversleeps Clock.origin ↔ completedEarly.EarliestFirst Clock.origin)
      ∧ ∀ useUTC, completedEarly.InOrder → completedEarly.ArmedInTime Clock.origin useUTC →
        (completedEarly.EarliestFirst Clock.origin ↔ completedEarly.DependentsLater Clock.origin) :=
  neverOversleeps_iff Clock.origin completedEarly (by decide +kernel)

/-- `PopTask` sleeps for 100 seconds, and the second task is to be activated after 50. -/
theorem not_neverOversleeps_completedEarly :
    (∀ p ∈ completedEarly.taskQueue, completedEarly.isRunnable Clock.origin p = false)
      ∧ ¬ completedEarly.NeverOversleeps Clock.origin := by
  have hnone : ∀ p ∈ completedEarly.taskQueue, completedEarly.isRunnable Clock.origin p = false := by
    decide +kernel
  refine ⟨hnone, fun hnever => ?_⟩
  have hsleeps : (completedEarly.popTask Clock.origin
      { wakeUpSignal := false, endSignal := false }).1 = .sleeping 100000000 :=
    (popTask_sleeping_iff hnone).mpr ⟨rfl, 2, by decide +kernel, by decide +kernel⟩
  have hle := hnever { wakeUpSignal := false, endSignal := false } 100000000 hsleeps 1
    (by decide +kernel) (by decide +kernel)
  exact absurd hle (by decide +kernel)

end DshLmc.TaskManager
