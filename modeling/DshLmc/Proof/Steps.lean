import DshLmc.Proof.Building
import DshLmc.Proof.Popping

/-!
# What a step does

A step of the system is a call by some client or a step of the worker. `workerMove` says once what
the worker can do. The rest of the file follows the tasks through the containers: a task enters the
queue only with a sequence that `AddTaskSequence` accepted, and the worker only holds copies of tasks
it took from the queue. `Traced` states this of a state and the sequences accepted so far, and
`Ledger` adds that, when no sequence is accepted twice, what was taken from the queue is not in it.
-/

namespace DshLmc

namespace System

/-- The sequence a step adds to the manager. -/
def adds (s : System) : Event → List TaskSequencePtr
  | .request (.addTaskSequence _ (some q) _) => if s.manager.Accepts q then [q] else []
  | _ => []

variable (S : SetImpl TaskPtr)

def added (s : System) : List Event → List TaskSequencePtr
  | [] => []
  | e :: rest => s.adds e ++ added (s.step S e) rest

variable {S}

theorem added_append (s : System) (first second : List Event) :
    s.added S (first ++ second) = s.added S first ++ (run (step S) s first).added S second := by
  induction first generalizing s with
  | nil => rfl
  | cons e rest ih => simp [added, ih]

theorem added_append_singleton (s : System) (past : List Event) (e : Event) :
    s.added S (past ++ [e]) = s.added S past ++ (run (step S) s past).adds e := by
  simp [added_append, added]

theorem added_sublist_of_prefix (s : System) {past events : List Event} (h : past <+: events) :
    (s.added S past).Sublist (s.added S events) := by
  obtain ⟨rest, rfl⟩ := h
  rw [added_append]
  exact List.sublist_append_left _ _

end System

/-- The task popped and not yet run. -/
def Worker.toRun : Worker → Option Task
  | .popped task => some task
  | _ => none

/-- What a step of the worker can do. -/
inductive WorkerMove (s : System) : System → Prop
  | stay {signals : Signals} {worker : Worker}
      (hworker : worker = s.worker ∨ s.worker = .sleeping ∧ worker = .ready) :
      WorkerMove s { s with signals := signals, worker := worker }
  | mark {signals : Signals} {worker : Worker} {m : TaskManager} (hready : s.worker = .ready)
      (hworker : worker = .ready ∨ worker = .sleeping)
      (hm : (s.manager.removeInQueue (matchTaskByStatus .expired)).Expiring m) :
      WorkerMove s { manager := m, signals := signals, worker := worker }
  | pop {signals : Signals} {m : TaskManager} {now : Clock} {p : TaskPtr}
      {front back : List TaskPtr}
      (hready : s.worker = .ready)
      (hm : (s.manager.removeInQueue (matchTaskByStatus .expired)).Expiring m)
      (hqueue : m.taskQueue = front ++ p :: back) (hrun : m.isRunnable now p = true)
      (hfront : ∀ p' ∈ front, m.isRunnable now p' = false) :
      WorkerMove s
        { manager := { m with taskQueue := m.taskQueue.erase p }
          signals := signals
          worker := .popped (m.task p) }
  | ran {task : Task} {outcome : TaskManager.RunOutcome} (hpopped : s.worker = .popped task) :
      WorkerMove s { s with worker := .handled task outcome }
  | report {task : Task} {outcome : TaskManager.RunOutcome}
      (hhandled : s.worker = .handled task outcome) :
      WorkerMove s { s with manager := s.manager.reportTask task outcome, worker := .ready }

theorem System.workerMove (s : System) (w : WorkerStep) : WorkerMove s (s.workerStep w) := by
  have hstay : WorkerMove s s := .stay (Or.inl rfl)
  cases hworker : s.worker with
  | ready =>
      cases w with
      | popTask now =>
          simp only [System.workerStep, hworker]
          rcases s.manager.popTask_cases now s.signals with
            ⟨outcome, signals, hout, heq⟩ | ⟨m, hm, ⟨outcome, signals, hout, heq⟩
              | ⟨p, front, back, signals, hqueue, hrun, hfront, heq⟩⟩
          · rw [heq]
            rcases hout with rfl | rfl <;> exact .stay (Or.inl hworker.symm)
          · rw [heq]
            obtain rfl | ⟨time, rfl⟩ := hout
            · exact .mark hworker (Or.inl rfl) hm
            · exact .mark hworker (Or.inr rfl) hm
          · rw [heq]
            exact .pop hworker hm (hm.taskQueue.trans hqueue) hrun hfront
      | awake timedOut => simpa only [System.workerStep, hworker] using hstay
      | runTask outcome => simpa only [System.workerStep, hworker] using hstay
      | reportTask => simpa only [System.workerStep, hworker] using hstay
  | sleeping =>
      cases w with
      | awake timedOut =>
          simp only [System.workerStep, hworker]
          cases hout : TaskManager.popTaskAwake timedOut s.signals with
          | mk returned signals =>
              cases returned with
              | true => exact .stay (Or.inr ⟨hworker, rfl⟩)
              | false => exact .stay (Or.inl hworker.symm)
      | popTask now => simpa only [System.workerStep, hworker] using hstay
      | runTask outcome => simpa only [System.workerStep, hworker] using hstay
      | reportTask => simpa only [System.workerStep, hworker] using hstay
  | popped task =>
      cases w with
      | runTask outcome =>
          simp only [System.workerStep, hworker]
          exact .ran hworker
      | popTask now => simpa only [System.workerStep, hworker] using hstay
      | awake timedOut => simpa only [System.workerStep, hworker] using hstay
      | reportTask => simpa only [System.workerStep, hworker] using hstay
  | handled task outcome =>
      cases w with
      | reportTask =>
          simp only [System.workerStep, hworker]
          exact .report hworker
      | popTask now => simpa only [System.workerStep, hworker] using hstay
      | awake timedOut => simpa only [System.workerStep, hworker] using hstay
      | runTask outcome => simpa only [System.workerStep, hworker] using hstay

/-- What a step of the worker makes of the manager. -/
theorem System.manager_workerStep_cases (s : System) (w : WorkerStep) :
    (s.workerStep w).manager = s.manager
      ∨ (∃ now, w = .popTask now ∧ s.worker = .ready
        ∧ (s.workerStep w).manager = (s.manager.popTask now s.signals).2.2)
      ∨ ∃ task outcome, (s.workerStep w).manager = s.manager.reportTask task outcome := by
  cases w with
  | popTask now =>
      cases hworker : s.worker with
      | ready => exact .inr (.inl ⟨now, rfl, rfl, by simp only [System.workerStep, hworker]⟩)
      | _ => exact .inl (by simp only [System.workerStep, hworker])
  | awake timedOut =>
      left
      cases hworker : s.worker <;> simp only [System.workerStep, hworker]
  | runTask outcome =>
      left
      cases hworker : s.worker <;> simp only [System.workerStep, hworker]
  | reportTask =>
      cases hworker : s.worker with
      | handled task outcome =>
          exact .inr (.inr ⟨task, outcome, by simp only [System.workerStep, hworker]⟩)
      | _ => exact .inl (by simp only [System.workerStep, hworker])

namespace WorkerMove

variable {s s' : System} {t : Task} {p : TaskPtr}

theorem sameObjects (h : WorkerMove s s') : SameObjects s.manager.toHeap s'.manager.toHeap := by
  cases h with
  | stay => exact SameObjects.refl _
  | mark hready hworker hm => exact hm.objects
  | pop hready hm => exact hm.objects
  | ran => exact SameObjects.refl _
  | report => exact TaskManager.sameObjects_reportTask

theorem taskSequences (h : WorkerMove s s') :
    s'.manager.taskSequences = s.manager.taskSequences := by
  cases h with
  | stay => rfl
  | mark hready hworker hm => exact hm.taskSequences
  | pop hready hm => exact hm.taskSequences
  | ran => rfl
  | report => rfl

theorem taskQueue_sublist (h : WorkerMove s s') :
    s'.manager.taskQueue.Sublist s.manager.taskQueue := by
  cases h with
  | stay => exact List.Sublist.refl _
  | mark hready hworker hm =>
      rw [hm.taskQueue]
      exact List.filter_sublist
  | pop hready hm =>
      refine List.erase_sublist.trans ?_
      rw [hm.taskQueue]
      exact List.filter_sublist
  | ran => exact List.Sublist.refl _
  | report => exact List.Sublist.refl _

/-- **A task held by the worker** was held before, or is a copy of one it took from the queue. -/
theorem held_cases (h : WorkerMove s s') (ht : s'.worker.held = some t) :
    s.worker.held = some t ∨ s'.worker.toRun = some t ∧ ∃ p ∈ s.manager.taskQueue,
      t.fixed = (s.manager.task p).fixed
        ∧ s'.manager.taskQueue.Sublist (s.manager.taskQueue.erase p) := by
  cases h with
  | stay hworker =>
      obtain rfl | ⟨hsleeping, rfl⟩ := hworker
      · exact Or.inl ht
      · simp [Worker.held] at ht
  | mark hready hworker hm => rcases hworker with rfl | rfl <;> simp [Worker.held] at ht
  | @pop _ m _ p front back hready hm hqueue =>
      have hsub : m.taskQueue.Sublist s.manager.taskQueue := by
        rw [hm.taskQueue]
        exact List.filter_sublist
      simp only [Worker.held, Option.some.injEq] at ht
      subst ht
      exact Or.inr ⟨rfl, p, hsub.subset (by simp [hqueue]), hm.objects.task p, hsub.erase p⟩
  | ran hpopped =>
      left
      simpa [Worker.held, hpopped] using ht
  | report => simp [Worker.held] at ht

theorem toRun_cases (h : WorkerMove s s') (ht : s'.worker.toRun = some t) :
    s.worker.toRun = some t ∨ ∃ p ∈ s.manager.taskQueue, t.fixed = (s.manager.task p).fixed := by
  have hheld : s'.worker.held = some t := by
    cases hw : s'.worker <;> simp_all [Worker.toRun, Worker.held]
  obtain hold | ⟨-, p, hp, heq, -⟩ := h.held_cases hheld
  · left
    cases h with
    | stay hworker =>
        obtain rfl | ⟨hsleeping, rfl⟩ := hworker
        · exact ht
        · simp [Worker.toRun] at ht
    | mark hready => simp [hready, Worker.held] at hold
    | pop hready => simp [hready, Worker.held] at hold
    | ran => simp [Worker.toRun] at ht
    | report => simp [Worker.toRun] at ht
  · exact Or.inr ⟨p, hp, heq⟩

end WorkerMove

namespace TaskManager

variable {S : SetImpl TaskPtr} {m : TaskManager} {signals : Signals} {p : TaskPtr}

theorem sameObjects_call (r : Request) :
    SameObjects m.toHeap (m.call S r signals).2.2.toHeap := by
  cases r with
  | addTaskSequence hasAttribute taskSequence addToQueue =>
      simp only [call]
      obtain ⟨-, heq⟩ | ⟨q, front, p, back, -, -, -, -, -, -, -, heq⟩ | ⟨q, -, -, -, heq⟩ :=
        m.addTaskSequence_cases (S := S) hasAttribute taskSequence addToQueue signals
      · rw [heq]
        exact SameObjects.refl _
      · rw [heq]
        exact (enqueued_enqueueTasks front m).objects
      · rw [heq]
        exact (enqueued_enqueueTasks _ m).objects
  | revokeTaskSequence name => exact sameObjects_revokeTaskSequence
  | revokeTask name => exact sameObjects_revokeTask
  | setSequenceTaskStatus id name status info => exact sameObjects_setSequenceTaskStatus
  | setAsynchTaskStatus attrName status info => exact sameObjects_setAsynchTaskStatus'
  | clearSequenceTasks now historyTimeThr keepRunningTasks useUTC =>
      cases keepRunningTasks <;> exact SameObjects.refl _
  | _ => exact SameObjects.refl _

theorem call_sublist {r : Request} (hr : ∀ hasAttribute q addToQueue,
      r ≠ .addTaskSequence hasAttribute (some q) addToQueue) :
    (m.call S r signals).2.2.taskQueue.Sublist m.taskQueue
      ∧ (m.call S r signals).2.2.taskSequences.Sublist m.taskSequences := by
  cases r with
  | addTaskSequence hasAttribute taskSequence addToQueue =>
      cases taskSequence with
      | none => exact ⟨List.Sublist.refl _, List.Sublist.refl _⟩
      | some q => exact absurd rfl (hr hasAttribute q addToQueue)
  | removeTaskSequence name => exact ⟨List.filter_sublist, List.filter_sublist⟩
  | revokeTaskSequence name => exact ⟨List.filter_sublist, List.Sublist.refl _⟩
  | revokeTask name => exact ⟨List.filter_sublist, List.Sublist.refl _⟩
  | flushQueue => exact ⟨List.nil_sublist _, List.Sublist.refl _⟩
  | clearAllSequenceTasks => exact ⟨List.Sublist.refl _, List.nil_sublist _⟩
  | clearSequenceTasks now historyTimeThr keepRunningTasks useUTC =>
      cases keepRunningTasks <;> exact ⟨List.Sublist.refl _, List.filter_sublist⟩
  | clearCompletedSequenceTasks now historyTimeThr useUTC =>
      exact ⟨List.Sublist.refl _, List.filter_sublist⟩
  | _ => exact ⟨List.Sublist.refl _, List.Sublist.refl _⟩

end TaskManager

namespace System

variable {S : SetImpl TaskPtr} {h : Heap} {s : System} {e : Event} {p : TaskPtr}
  {q : TaskSequencePtr}

@[simp]
theorem manager_request (r : Request) :
    (s.request S r).manager = (s.manager.call S r s.signals).2.2 := rfl

theorem sameObjects_step (e : Event) :
    SameObjects s.manager.toHeap (s.step S e).manager.toHeap := by
  cases e with
  | request r => exact TaskManager.sameObjects_call r
  | worker w => exact (s.workerMove w).sameObjects

theorem adds_cases (s : System) (e : Event) :
    (∃ hasAttribute q addToQueue, e = .request (.addTaskSequence hasAttribute (some q) addToQueue)
        ∧ s.manager.Accepts q ∧ s.adds e = [q])
      ∨ (s.adds e = []
        ∧ (s.step S e).manager.taskQueue.Sublist s.manager.taskQueue
        ∧ (s.step S e).manager.taskSequences.Sublist s.manager.taskSequences) := by
  cases e with
  | worker w =>
      exact Or.inr ⟨rfl, (s.workerMove w).taskQueue_sublist,
        (s.workerMove w).taskSequences ▸ List.Sublist.refl _⟩
  | request r =>
      by_cases hr : ∃ hasAttribute q addToQueue,
          r = .addTaskSequence hasAttribute (some q) addToQueue
      · obtain ⟨hasAttribute, q, addToQueue, rfl⟩ := hr
        by_cases haccepts : s.manager.Accepts q
        · exact Or.inl ⟨hasAttribute, q, addToQueue, rfl, haccepts, by simp [adds, haccepts]⟩
        · have heq : s.manager.call S (.addTaskSequence hasAttribute (some q) addToQueue) s.signals
              = (-1, s.signals, s.manager) := by
            obtain ⟨-, heq⟩ | ⟨q', -, -, -, hq, habs, -⟩ | ⟨q', hq, habs, -⟩ :=
              s.manager.addTaskSequence_cases (S := S) hasAttribute (some q) addToQueue s.signals
            · exact heq
            · exact absurd (Option.some.inj hq ▸ habs) haccepts
            · exact absurd (Option.some.inj hq ▸ habs) haccepts
          refine Or.inr ⟨by simp [adds, haccepts], ?_⟩
          simp [step, heq]
      · have hr' : ∀ hasAttribute q addToQueue,
            r ≠ .addTaskSequence hasAttribute (some q) addToQueue :=
          fun hasAttribute q addToQueue heq => hr ⟨hasAttribute, q, addToQueue, heq⟩
        refine Or.inr ⟨?_, TaskManager.call_sublist hr'⟩
        unfold adds
        split
        · rename_i hasAttribute q addToQueue heq
          exact absurd (Event.request.inj heq) (hr' hasAttribute q addToQueue)
        · rfl

theorem step_addTaskSequence (hasAttribute : String → Bool) (addToQueue : Bool)
    (haccepts : s.manager.Accepts q) :
    ∃ ps, ps <+: (s.manager.sequence q).tasks
      ∧ (s.step S (.request (.addTaskSequence hasAttribute (some q) addToQueue))).manager.taskQueue
        = (s.manager.enqueueTasks S ps).taskQueue
      ∧ (s.step S
          (.request (.addTaskSequence hasAttribute (some q) addToQueue))).manager.taskSequences
        ⊆ s.manager.taskSequences ++ [q] := by
  simp only [step, manager_request, TaskManager.call]
  obtain ⟨habs, -⟩ | ⟨q', front, p, back, hq, -, -, htasks, -, -, -, heq⟩ | ⟨q', hq, -, -, heq⟩ :=
    s.manager.addTaskSequence_cases (S := S) hasAttribute (some q) addToQueue s.signals
  · exact absurd haccepts (habs q rfl)
  · cases hq
    refine ⟨front, htasks ▸ List.prefix_append _ _, by rw [heq], ?_⟩
    rw [heq, (TaskManager.enqueued_enqueueTasks front s.manager).taskSequences]
    exact List.subset_append_left _ _
  · cases hq
    refine ⟨if addToQueue then (s.manager.sequence q).tasks else [], ?_, by rw [heq], ?_⟩
    · split
      · exact List.prefix_rfl
      · exact List.nil_prefix
    · rw [heq]
      exact List.Subset.refl _

theorem mem_taskQueue_step (hp : p ∈ (s.step S e).manager.taskQueue) :
    p ∈ s.manager.taskQueue ∨ ∃ q ∈ s.adds e, p ∈ (s.manager.sequence q).tasks := by
  obtain ⟨hasAttribute, q, addToQueue, rfl, haccepts, hadds⟩ | ⟨-, hsub, -⟩ :=
    s.adds_cases (S := S) e
  · obtain ⟨ps, hps, hqueue, -⟩ := step_addTaskSequence (S := S) hasAttribute addToQueue
      haccepts
    rw [hqueue] at hp
    obtain hp | hp :=
      List.mem_append.mp ((TaskManager.enqueued_enqueueTasks ps s.manager).subset hp)
    · exact Or.inr ⟨q, by simp [hadds], hps.subset hp⟩
    · exact Or.inl hp
  · exact Or.inl (hsub.subset hp)

theorem mem_taskSequences_step (hq : q ∈ (s.step S e).manager.taskSequences) :
    q ∈ s.manager.taskSequences ∨ q ∈ s.adds e := by
  obtain ⟨hasAttribute, q', addToQueue, rfl, haccepts, hadds⟩ | ⟨-, -, hsub⟩ :=
    s.adds_cases (S := S) e
  · obtain ⟨ps, -, -, hsequences⟩ := step_addTaskSequence (S := S) hasAttribute addToQueue
      haccepts
    rw [hadds]
    exact List.mem_append.mp (hsequences hq)
  · exact Or.inl (hsub.subset hq)

theorem nodup_taskQueue_step (hqueue : s.manager.taskQueue.Nodup)
    (hnew : ∀ q ∈ s.adds e, (s.manager.sequence q).tasks.Nodup
      ∧ ∀ p ∈ (s.manager.sequence q).tasks, p ∉ s.manager.taskQueue) :
    (s.step S e).manager.taskQueue.Nodup := by
  obtain ⟨hasAttribute, q, addToQueue, rfl, haccepts, hadds⟩ | ⟨-, hsub, -⟩ :=
    s.adds_cases (S := S) e
  · obtain ⟨ps, hps, heq, -⟩ := step_addTaskSequence (S := S) hasAttribute addToQueue
      haccepts
    obtain ⟨hnodup, hfresh⟩ := hnew q (by simp [hadds])
    rw [heq]
    exact TaskManager.nodup_enqueueTasks hqueue (hps.sublist.nodup hnodup)
      fun p hp => hfresh p (hps.subset hp)
  · exact hsub.nodup hqueue

theorem held_step {t : Task} (ht : (s.step S e).worker.held = some t) :
    s.worker.held = some t ∨ (s.step S e).worker.toRun = some t ∧ ∃ p ∈ s.manager.taskQueue,
      t.fixed = (s.manager.task p).fixed
        ∧ (s.step S e).manager.taskQueue.Sublist (s.manager.taskQueue.erase p) := by
  cases e with
  | request r => exact Or.inl ht
  | worker w => exact (s.workerMove w).held_cases ht

end System

/-! ### The collection -/

/-- The sequences that a call drops from the collection. -/
def Request.drops : Request → TaskSequence → Bool
  | .removeTaskSequence name => matchTaskSequenceByName name
  | .clearAllSequenceTasks => fun _ => true
  | .clearSequenceTasks now historyTimeThr keepRunningTasks useUTC =>
      if keepRunningTasks then
        matchOldSequenceTask (some .running) (now.current useUTC) historyTimeThr true
      else matchOldSequenceTask none (now.current useUTC) historyTimeThr false
  | .clearCompletedSequenceTasks now historyTimeThr useUTC =>
      matchOldSequenceTask (some .completed) (now.current useUTC) historyTimeThr true
  | _ => fun _ => false

def Event.drops : Event → TaskSequence → Bool
  | .request r => r.drops
  | .worker _ => fun _ => false

namespace System

variable {S : SetImpl TaskPtr} {s : System} {e : Event} {q : TaskSequencePtr}

variable (S) in
/-- The sequence that a step puts into the collection. -/
def tracks (s : System) : Event → List TaskSequencePtr
  | .request (.addTaskSequence hasAttribute (some q) addToQueue) =>
      if (s.manager.addTaskSequence S hasAttribute (some q) addToQueue s.signals).1 = 0 then [q]
      else []
  | _ => []

theorem adds_of_mem_tracks (hq : q ∈ s.tracks S e) : s.adds e = [q] ∧ s.tracks S e = [q] := by
  unfold tracks at hq ⊢
  split at hq
  · rename_i hasAttribute q' addToQueue
    split at hq
    · rename_i hcode
      obtain rfl := List.mem_singleton.mp hq
      refine ⟨?_, if_pos hcode⟩
      obtain ⟨-, heq⟩ | ⟨q', front, p, back, -, -, -, -, -, -, -, heq⟩ | ⟨q', hq', haccepts, -, -⟩ :=
        s.manager.addTaskSequence_cases (S := S) hasAttribute (some q) addToQueue s.signals
      · simp [heq] at hcode
      · simp [heq] at hcode
      · cases hq'
        simp [adds, haccepts]
    · exact absurd hq List.not_mem_nil
  · exact absurd hq List.not_mem_nil

theorem taskSequences_step (e : Event) :
    (s.step S e).manager.taskSequences
      = (s.manager.taskSequences.filter fun q => !e.drops (s.manager.sequence q))
        ++ s.tracks S e := by
  have hall : s.manager.taskSequences
      = s.manager.taskSequences.filter fun _ => !false := by simp
  cases e with
  | worker w =>
      simp only [Event.drops, tracks, List.append_nil, ← hall]
      exact (s.workerMove w).taskSequences
  | request r =>
      cases r with
      | addTaskSequence hasAttribute taskSequence addToQueue =>
          simp only [step, manager_request, TaskManager.call, Event.drops, Request.drops, ← hall]
          cases taskSequence with
          | none => simp [TaskManager.addTaskSequence, tracks]
          | some q =>
              obtain ⟨-, heq⟩ | ⟨q', front, p, back, -, -, -, -, -, -, -, heq⟩ | ⟨q', hq', -, -, heq⟩ :=
                s.manager.addTaskSequence_cases (S := S) hasAttribute (some q) addToQueue s.signals
              · simp [heq, tracks]
              · simp [heq, tracks,
                  (TaskManager.enqueued_enqueueTasks (S := S) front s.manager).taskSequences]
              · cases hq'
                simp [heq, tracks]
      | clearSequenceTasks now historyTimeThr keepRunningTasks useUTC =>
          simp only [tracks, List.append_nil]
          cases keepRunningTasks <;> rfl
      | clearAllSequenceTasks =>
          simp [step, TaskManager.call, TaskManager.clearAllSequenceTasks, Event.drops,
            Request.drops, tracks]
      | removeTaskSequence name => simp only [tracks, List.append_nil]; rfl
      | clearCompletedSequenceTasks now historyTimeThr useUTC =>
          simp only [tracks, List.append_nil]
          rfl
      | _ =>
          simp only [tracks, List.append_nil, Event.drops, Request.drops, ← hall]
          rfl

end System

/-- Where the tasks in the two containers and in the worker's hands come from. -/
structure Traced (h : Heap) (added : List TaskSequencePtr) (s : System) : Prop where
  objects : SameObjects h s.manager.toHeap
  queued : ∀ p ∈ s.manager.taskQueue, ∃ q ∈ added, p ∈ (h.sequence q).tasks
  held : ∀ t, s.worker.held = some t →
    ∃ p, t.fixed = (h.task p).fixed ∧ ∃ q ∈ added, p ∈ (h.sequence q).tasks
  tracked : ∀ q ∈ s.manager.taskSequences, q ∈ added
  nonempty : ∀ q ∈ added, (h.sequence q).tasks ≠ []

/-- With every sequence added only once, a task is in the queue, or out of it for good. -/
structure Ledger (h : Heap) (added : List TaskSequencePtr) (s : System) : Prop
    extends Traced h added s where
  nodup : s.manager.taskQueue.Nodup
  taken : ∀ t, s.worker.held = some t → ∀ p ∈ s.manager.taskQueue, (h.task p).id ≠ t.id

section

variable {S : SetImpl TaskPtr} {h : Heap} {added : List TaskSequencePtr} {s : System}

theorem Traced.create (h : Heap) (devName : String) : Traced h [] (System.create h devName) where
  objects := SameObjects.refl h
  queued p hp := by simp [System.create, TaskManager.create] at hp
  held t ht := by simp [System.create, Worker.held] at ht
  tracked q hq := by simp [System.create, TaskManager.create] at hq
  nonempty q hq := by simp at hq

theorem Traced.step (ht : Traced h added s) (e : Event) :
    Traced h (added ++ s.adds e) (s.step S e) where
  objects := ht.objects.trans (System.sameObjects_step e)
  queued p hp := by
    obtain hp | ⟨q, hq, hp⟩ := System.mem_taskQueue_step hp
    · obtain ⟨q, hq, hmem⟩ := ht.queued p hp
      exact ⟨q, List.mem_append_left _ hq, hmem⟩
    · rw [ht.objects.tasks] at hp
      exact ⟨q, List.mem_append_right _ hq, hp⟩
  held t hheld := by
    obtain hheld | ⟨-, p, hp, hcopy, -⟩ := System.held_step hheld
    · obtain ⟨p, hcopy, q, hq, hmem⟩ := ht.held t hheld
      exact ⟨p, hcopy, q, List.mem_append_left _ hq, hmem⟩
    · obtain ⟨q, hq, hmem⟩ := ht.queued p hp
      exact ⟨p, hcopy.trans (ht.objects.task p), q, List.mem_append_left _ hq, hmem⟩
  tracked q hq := by
    obtain hq | hq := System.mem_taskSequences_step hq
    · exact List.mem_append_left _ (ht.tracked q hq)
    · exact List.mem_append_right _ hq
  nonempty q hq := by
    obtain hq | hq := List.mem_append.mp hq
    · exact ht.nonempty q hq
    · obtain ⟨-, q', -, -, haccepts, hadds⟩ | ⟨hadds, -⟩ := s.adds_cases (S := S) e
      · obtain rfl : q = q' := by simpa [hadds] using hq
        rw [← ht.objects.tasks]
        exact haccepts.1
      · simp [hadds] at hq

theorem Ledger.create (h : Heap) (devName : String) : Ledger h [] (System.create h devName) where
  toTraced := Traced.create h devName
  nodup := List.nodup_nil
  taken t ht := by simp [System.create, Worker.held] at ht

theorem Ledger.step (hb : h.WellBuilt) (hl : Ledger h added s) {e : Event}
    (honce : (added ++ s.adds e).Nodup) : Ledger h (added ++ s.adds e) (s.step S e) where
  toTraced := hl.toTraced.step e
  nodup := by
    refine System.nodup_taskQueue_step hl.nodup fun q hq => ?_
    rw [hl.objects.tasks]
    refine ⟨hb.nodup q, fun p hp hqueued => ?_⟩
    -- A task already queued is in a sequence added before, which is therefore the same.
    obtain ⟨q', hq', hp'⟩ := hl.queued p hqueued
    exact (List.disjoint_of_nodup_append honce) hq' (hb.sequence_eq hp hp' ▸ hq)
  taken t hheld p hp := by
    have hid : ∀ {p₁}, (∃ q ∈ added, p₁ ∈ (h.sequence q).tasks) → p₁ ≠ p →
        (h.task p₁).id ≠ (h.task p).id := by
      rintro p₁ ⟨q₁, -, h₁⟩ hne heq
      obtain ⟨q₂, -, h₂⟩ := (hl.toTraced.step e).queued p hp
      exact hne (hb.id_inj q₁ q₂ p₁ p h₁ h₂ heq)
    obtain hold | ⟨-, p₁, hp₁, hcopy, hsub⟩ := System.held_step hheld
    · obtain hp | ⟨q, hq, hmem⟩ := System.mem_taskQueue_step hp
      · exact hl.taken t hold p hp
      · obtain ⟨p₁, hcopy, q₁, hq₁, h₁⟩ := hl.held t hold
        rw [Task.id_of_fixed hcopy]
        refine (hid ⟨q₁, hq₁, h₁⟩ ?_).symm
        rintro rfl
        rw [hl.objects.tasks] at hmem
        exact (List.disjoint_of_nodup_append honce) hq₁ (hb.sequence_eq h₁ hmem ▸ hq)
    · have hcopy' := hcopy.trans (hl.objects.task p₁)
      rw [Task.id_of_fixed hcopy']
      refine (hid (hl.queued p₁ hp₁) ?_).symm
      rintro rfl
      exact absurd (hsub.subset hp) (hl.nodup.not_mem_erase)

variable (events : List Event) (devName : String)

/-- **Every run is traced.** -/
theorem traced_run : Traced h ((System.create h devName).added S events)
    (run (System.step S) (System.create h devName) events) := by
  refine run_history (I := fun past s => Traced h ((System.create h devName).added S past) s)
    (Traced.create h devName) fun past e _ ht => ?_
  rw [System.added_append_singleton]
  exact ht.step e

/-- **A run that adds every sequence at most once keeps the ledger.** -/
theorem ledger_run (hb : h.WellBuilt) (honce : ((System.create h devName).added S events).Nodup) :
    Ledger h ((System.create h devName).added S events)
      (run (System.step S) (System.create h devName) events) := by
  refine run_history (I := fun past s => Ledger h ((System.create h devName).added S past) s)
    (Ledger.create h devName) fun past e hpre hl => ?_
  have hnodup := (System.added_sublist_of_prefix (S := S) (System.create h devName) hpre).nodup
    honce
  rw [System.added_append_singleton] at hnodup ⊢
  exact hl.step hb hnodup

end

end DshLmc
