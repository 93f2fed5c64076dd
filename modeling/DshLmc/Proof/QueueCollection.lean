import DshLmc.Proof.QueueOrder
import DshLmc.Proof.Steps

/-!
# The queue and the collection

The queue and the collection of sequences share their tasks, and no operation looks at both. They
agree when every queued task belongs to a tracked sequence, and every `IDLE` task of a tracked
sequence is still going to be run: it is queued, or the worker holds it.

Five kinds of call can break the agreement. `AddTaskSequence` leaves tasks behind in the queue when
it stops at a refused one, `FlushQueue` leaves the flushed tasks `IDLE`, the `Clear` operations drop
sequences whose tasks are queued, and the two operations that write a status may write `IDLE`. The
condition `KeepsAgreement` on a step excludes just these cases.
-/

namespace DshLmc

namespace System

def Holds (s : System) (p : TaskPtr) : Prop :=
  ∃ t, s.worker.held = some t ∧ t.id = (s.manager.task p).id

/-- The task is still going to be run. -/
def Pending (s : System) (p : TaskPtr) : Prop := p ∈ s.manager.taskQueue ∨ s.Holds p

end System

/-- The queue and the collection agree. -/
structure Agree (s : System) : Prop where
  queued : ∀ p ∈ s.manager.taskQueue, ∃ q ∈ s.manager.taskSequences,
    p ∈ (s.manager.sequence q).tasks
  pending : ∀ q ∈ s.manager.taskSequences, ∀ p ∈ (s.manager.sequence q).tasks,
    (s.manager.task p).status = .idle → s.Pending p

/-- Queueing the sequence leaves no task without its sequence and drops none: no task is refused, or
the first one is, or the sequence is tracked already, and no two tasks depend on each other. -/
structure TaskManager.AddsWhole (m : TaskManager) (hasAttribute : String → Bool)
    (q : TaskSequencePtr) : Prop where
  refused : q ∈ m.taskSequences ∨ (∀ p ∈ (m.sequence q).tasks, ¬ m.Refuses hasAttribute p)
    ∨ ∀ p ∈ (m.sequence q).tasks.head?, m.Refuses hasAttribute p
  not_mutual : ∀ p ∈ (m.sequence q).tasks, ∀ p' ∈ (m.sequence q).tasks, p ≠ p' →
    m.dependsDirectly p p' = true → m.dependsDirectly p' p = false

/-- None of the sequences a clear operation drops has a task in the queue. -/
def TaskManager.DropsNoQueued (m : TaskManager) (found : TaskSequence → Bool) : Prop :=
  ∀ q ∈ m.taskSequences, found (m.sequence q) = true →
    ∀ p ∈ (m.sequence q).tasks, p ∉ m.taskQueue

/-- The step does not break the agreement of the queue and the collection. -/
def KeepsAgreement (s : System) : Event → Prop
  | .request (.addTaskSequence hasAttribute (some q) addToQueue) =>
      s.manager.Accepts q →
        if addToQueue then s.manager.AddsWhole hasAttribute q
        else ∀ p ∈ (s.manager.sequence q).tasks, (s.manager.task p).status = .idle → s.Pending p
  | .request .flushQueue =>
      ∀ p ∈ s.manager.taskQueue, (s.manager.task p).status = .idle → s.Holds p
  | .request (.setSequenceTaskStatus id name status _) =>
      status = .idle → ∀ q ∈ s.manager.taskSequences, ∀ p,
        s.manager.findTask q id name = some p → s.Pending p
  | .request (.setAsynchTaskStatus attrName status _) =>
      status = .idle → ∀ q ∈ s.manager.taskSequences, ∀ p,
        s.manager.findAsynchTask q attrName = some p → s.Pending p
  | .request .clearAllSequenceTasks => s.manager.DropsNoQueued fun _ => true
  | .request (.clearSequenceTasks now historyTimeThr keepRunningTasks useUTC) =>
      s.manager.DropsNoQueued
        (if keepRunningTasks then
          matchOldSequenceTask (some .running) (now.current useUTC) historyTimeThr true
        else matchOldSequenceTask none (now.current useUTC) historyTimeThr false)
  | .request (.clearCompletedSequenceTasks now historyTimeThr useUTC) =>
      s.manager.DropsNoQueued
        (matchOldSequenceTask (some .completed) (now.current useUTC) historyTimeThr true)
  | _ => True

/-- Every `IDLE` task of a tracked sequence is still going to be run. -/
def System.IdlePending (s : System) : Prop :=
  ∀ q ∈ s.manager.taskSequences, ∀ p ∈ (s.manager.sequence q).tasks,
    (s.manager.task p).status = .idle → s.Pending p

/-- No two tasks of the sequence depend on each other. -/
def TaskManager.NotMutual (m : TaskManager) (q : TaskSequencePtr) : Prop :=
  ∀ p ∈ (m.sequence q).tasks, ∀ p' ∈ (m.sequence q).tasks, p ≠ p' →
    m.dependsDirectly p p' = true → m.dependsDirectly p' p = false

/-- The step leaves no `IDLE` task of a tracked sequence behind. -/
def KeepsPending (s : System) : Event → Prop
  | .request (.addTaskSequence _ (some q) addToQueue) =>
      s.manager.Accepts q →
        if addToQueue then s.manager.NotMutual q
        else ∀ p ∈ (s.manager.sequence q).tasks, (s.manager.task p).status = .idle → s.Pending p
  | .request .flushQueue =>
      ∀ q ∈ s.manager.taskSequences, ∀ p ∈ (s.manager.sequence q).tasks,
        p ∈ s.manager.taskQueue → (s.manager.task p).status = .idle → s.Holds p
  | .request (.setSequenceTaskStatus id name status _) =>
      status = .idle → ∀ q ∈ s.manager.taskSequences, ∀ p,
        s.manager.findTask q id name = some p → s.Pending p
  | .request (.setAsynchTaskStatus attrName status _) =>
      status = .idle → ∀ q ∈ s.manager.taskSequences, ∀ p,
        s.manager.findAsynchTask q attrName = some p → s.Pending p
  | _ => True

instance (s : System) (p : TaskPtr) : Decidable (s.Holds p) :=
  decidable_of_iff (∃ t ∈ s.worker.held, t.id = (s.manager.task p).id) Iff.rfl

instance (s : System) (p : TaskPtr) : Decidable (s.Pending p) :=
  inferInstanceAs (Decidable (_ ∨ _))

instance (m : TaskManager) (q : TaskSequencePtr) : Decidable (m.NotMutual q) :=
  inferInstanceAs (Decidable (∀ p ∈ (m.sequence q).tasks, ∀ p' ∈ (m.sequence q).tasks, p ≠ p' →
    m.dependsDirectly p p' = true → m.dependsDirectly p' p = false))

instance (s : System) : (e : Event) → Decidable (KeepsPending s e)
  | .request (.addTaskSequence _ (some q) true) =>
      inferInstanceAs (Decidable (s.manager.Accepts q → s.manager.NotMutual q))
  | .request (.addTaskSequence _ (some q) false) =>
      inferInstanceAs (Decidable (s.manager.Accepts q → ∀ p ∈ (s.manager.sequence q).tasks,
        (s.manager.task p).status = .idle → s.Pending p))
  | .request .flushQueue =>
      inferInstanceAs (Decidable (∀ q ∈ s.manager.taskSequences, ∀ p ∈ (s.manager.sequence q).tasks,
        p ∈ s.manager.taskQueue → (s.manager.task p).status = .idle → s.Holds p))
  | .request (.setSequenceTaskStatus id name status _) =>
      inferInstanceAs (Decidable (status = .idle → ∀ q ∈ s.manager.taskSequences,
        ∀ p ∈ s.manager.findTask q id name, s.Pending p))
  | .request (.setAsynchTaskStatus attrName status _) =>
      inferInstanceAs (Decidable (status = .idle → ∀ q ∈ s.manager.taskSequences,
        ∀ p ∈ s.manager.findAsynchTask q attrName, s.Pending p))
  | .request (.addTaskSequence _ none _) => .isTrue trivial
  | .request (.removeTaskSequence _) => .isTrue trivial
  | .request (.revokeTaskSequence _) => .isTrue trivial
  | .request (.revokeTask _) => .isTrue trivial
  | .request .clearAllSequenceTasks => .isTrue trivial
  | .request (.clearSequenceTasks _ _ _ _) => .isTrue trivial
  | .request (.clearCompletedSequenceTasks _ _ _) => .isTrue trivial
  | .request .wakeUp => .isTrue trivial
  | .request .endThread => .isTrue trivial
  | .request (.setMaxNTasksInQueue _) => .isTrue trivial
  | .request (.setMaxNTasksInCollection _) => .isTrue trivial
  | .worker _ => .isTrue trivial

section

variable {S : SetImpl TaskPtr} {h : Heap} {added : List TaskSequencePtr} {s s' : System}
  {p : TaskPtr} {q : TaskSequencePtr}

theorem KeepsAgreement.keepsPending {e : Event} (hc : KeepsAgreement s e) : KeepsPending s e := by
  unfold KeepsPending
  split
  · rename_i hasAttribute q addToQueue
    intro haccepts
    have hadds := hc haccepts
    cases addToQueue with
    | true =>
        simp only [if_true] at hadds ⊢
        exact hadds.not_mutual
    | false => exact hadds
  · exact fun q _ p _ hp => hc p hp
  · exact hc
  · exact hc
  · trivial

theorem System.holds_of_sameObjects (hs : SameObjects s.manager.toHeap s'.manager.toHeap)
    (hworker : s'.worker = s.worker) : s'.Holds p ↔ s.Holds p := by
  simp only [System.Holds, hworker, hs.id]

namespace System.IdlePending

/-- A step of another thread that only takes out: every task that is `IDLE` keeps its place in the
queue. -/
theorem takeOut (hi : s.IdlePending) (hs : SameObjects s.manager.toHeap s'.manager.toHeap)
    (hworker : s'.worker = s.worker)
    (hsequences : s'.manager.taskSequences ⊆ s.manager.taskSequences)
    (hidle : ∀ q ∈ s'.manager.taskSequences, ∀ p ∈ (s.manager.sequence q).tasks,
      (s'.manager.task p).status = .idle → ((s.manager.task p).status = .idle ∨ s.Pending p)
        ∧ (p ∈ s.manager.taskQueue → p ∈ s'.manager.taskQueue ∨ s.Holds p)) :
    s'.IdlePending := by
  intro q hq p hp hstatus
  rw [hs.tasks] at hp
  obtain ⟨hold, hkept⟩ := hidle q hq p hp hstatus
  have hpending : s.Pending p := hold.elim (hi q (hsequences hq) p hp) fun h => h
  obtain hqueued | hheld := hpending
  · exact (hkept hqueued).imp_right (System.holds_of_sameObjects hs hworker).mpr
  · exact Or.inr ((System.holds_of_sameObjects hs hworker).mpr hheld)

theorem drop (hi : s.IdlePending) (found : TaskSequence → Bool) :
    System.IdlePending { s with manager := s.manager.removeSequences found } :=
  hi.takeOut (SameObjects.refl _) rfl List.filter_sublist.subset
    fun _ _ _ _ hstatus => ⟨Or.inl hstatus, fun hqueued => Or.inl hqueued⟩

theorem write (hi : s.IdlePending) (hs : SameObjects s.manager.toHeap s'.manager.toHeap)
    (hworker : s'.worker = s.worker)
    (hsequences : s'.manager.taskSequences = s.manager.taskSequences)
    (hqueue : s'.manager.taskQueue = s.manager.taskQueue) {status : TaskStatus}
    {found : TaskSequencePtr → Option TaskPtr}
    (hstatus : ∀ p, (s'.manager.task p).status
      = if ∃ q ∈ s.manager.taskSequences, found q = some p then status
        else (s.manager.task p).status)
    (hpending : status = .idle → ∀ q ∈ s.manager.taskSequences, ∀ p, found q = some p →
      s.Pending p) : s'.IdlePending := by
  refine hi.takeOut hs hworker (hsequences ▸ List.Subset.refl _)
    fun q hq p hp hidle => ⟨?_, fun hqueued => Or.inl (hqueue ▸ hqueued)⟩
  rw [hstatus] at hidle
  split at hidle
  · rename_i hfound
    obtain ⟨q', hq', hfind⟩ := hfound
    exact Or.inr (hpending hidle q' hq' p hfind)
  · exact Or.inl hidle

end System.IdlePending

theorem less_of_notMutual (hb : h.WellBuilt) (ht : Traced h added s)
    (hadds : s.manager.NotMutual q) {p' : TaskPtr} (hp : p ∈ (s.manager.sequence q).tasks)
    (hp' : p' ∈ (s.manager.sequence q).tasks ++ s.manager.taskQueue) (hne : p' ≠ p) :
    s.manager.less p p' = true ∨ s.manager.less p' p = true := by
  have hmem : p ∈ (h.sequence q).tasks := by rwa [ht.objects.tasks] at hp
  obtain ⟨q', hmem'⟩ : ∃ q', p' ∈ (h.sequence q').tasks := by
    obtain hp' | hp' := List.mem_append.mp hp'
    · exact ⟨q, by rwa [ht.objects.tasks] at hp'⟩
    · obtain ⟨q', -, hmem'⟩ := ht.queued p' hp'
      exact ⟨q', hmem'⟩
  have hids : (([p, p'] : List TaskPtr).map fun p => (s.manager.task p).id).Nodup := by
    simp only [List.map_cons, List.map_nil, List.nodup_cons, List.mem_singleton,
      List.not_mem_nil, not_false_eq_true, List.nodup_nil, and_true, ht.objects.id]
    exact fun heq => hne (hb.id_inj q q' p p' hmem hmem' heq).symm
  -- Tasks that depend on each other are in one sequence.
  have hsame : ∀ {a b}, s.manager.dependsDirectly a b = true → a = p ∧ b = p' ∨ a = p' ∧ b = p →
      p' ∈ (s.manager.sequence q).tasks := by
    intro a b hdep hab
    obtain ⟨i, hi⟩ := List.mem_iff_getElem?.mp hmem
    obtain ⟨i', hi'⟩ := List.mem_iff_getElem?.mp hmem'
    have hseqId : (s.manager.task a).sequenceId = (s.manager.task b).sequenceId := by
      simp only [Heap.dependsDirectly, dependsDirectly, areInSameSequence, Bool.and_eq_true,
        beq_iff_eq] at hdep
      exact hdep.1.1.2
    have hseqId' : (h.task p).sequenceId = (h.task p').sequenceId := by
      obtain ⟨rfl, rfl⟩ | ⟨rfl, rfl⟩ := hab
      · rwa [ht.objects.sequenceId, ht.objects.sequenceId] at hseqId
      · rw [ht.objects.sequenceId, ht.objects.sequenceId] at hseqId
        exact hseqId.symm
    rw [(hb.place q i p hi).2.1, (hb.place q' i' p' hi').2.1] at hseqId'
    have hqq := hb.seqId_inj q q' (List.ne_nil_of_mem hmem) (List.ne_nil_of_mem hmem') hseqId'
    rw [ht.objects.tasks, hqq]
    exact hmem'
  have hmutual : ∀ a ∈ [p, p'], ∀ b ∈ [p, p'], a ≠ b → s.manager.dependsDirectly a b = true →
      s.manager.dependsDirectly b a = false := by
    intro a ha b hb' hab hdep
    simp only [List.mem_cons, List.not_mem_nil, or_false] at ha hb'
    rcases ha with rfl | rfl <;> rcases hb' with rfl | rfl
    · exact absurd rfl hab
    · exact hadds a hp b (hsame hdep (Or.inl ⟨rfl, rfl⟩)) hab hdep
    · exact hadds a (hsame hdep (Or.inr ⟨rfl, rfl⟩)) b hp hab hdep
    · exact absurd rfl hab
  rw [Heap.less_eq_overrideLt]
  exact totalOn_overrideLt (Heap.key_injOn hids) hmutual p (by simp) p' (by simp) hne.symm

theorem pending_enqueueTasks (hb : h.WellBuilt) (ht : Traced h added s) (hi : s.IdlePending)
    (hadds : s.manager.NotMutual q) {ps : List TaskPtr} (hps : ps ⊆ (s.manager.sequence q).tasks)
    (hmanager : s'.manager.toHeap = (s.manager.enqueueTasks S ps).toHeap)
    (hqueue : s'.manager.taskQueue = (s.manager.enqueueTasks S ps).taskQueue)
    (hworker : s'.worker = s.worker) {q' : TaskSequencePtr}
    (hq' : q' ∈ s.manager.taskSequences ∨ (s.manager.sequence q').tasks ⊆ ps)
    (hp : p ∈ (s.manager.sequence q').tasks) (hstatus : (s'.manager.task p).status = .idle) :
    s'.Pending p := by
  have henqueued := TaskManager.enqueued_enqueueTasks (S := S) ps s.manager
  have hs : SameObjects s.manager.toHeap s'.manager.toHeap := hmanager ▸ henqueued.objects
  by_cases hmem : p ∈ ps
  · left
    rw [hqueue]
    refine TaskManager.subset_enqueueTasks (fun a ha b hb' hne => ?_) hmem
    refine less_of_notMutual hb ht hadds (hps ha) ?_ hne
    obtain hb' | hb' := List.mem_append.mp hb'
    · exact List.mem_append_left _ (hps hb')
    · exact List.mem_append_right _ hb'
  · have htracked : q' ∈ s.manager.taskSequences := hq'.resolve_right fun hsub => hmem (hsub hp)
    have hidle : (s.manager.task p).status = .idle := by
      have heq := henqueued.status p
      rw [if_neg hmem] at heq
      rw [← heq, ← hstatus, hmanager]
    obtain hqueued | hheld := hi q' htracked p hp hidle
    · exact Or.inl (hqueue ▸ henqueued.kept hqueued)
    · exact Or.inr ((System.holds_of_sameObjects hs hworker).mpr hheld)

theorem System.IdlePending.addTaskSequence (hb : h.WellBuilt) (ht : Traced h added s)
    (hi : s.IdlePending) {hasAttribute : String → Bool} {addToQueue : Bool}
    (hc : KeepsPending s (.request (.addTaskSequence hasAttribute (some q) addToQueue))) :
    (s.request S (.addTaskSequence hasAttribute (some q) addToQueue)).IdlePending := by
  rcases s.manager.addTaskSequence_cases (S := S) hasAttribute (some q) addToQueue s.signals with
    ⟨-, heq⟩ | ⟨q', front, p₀, back, hq, haccepts, rfl, htasks, -, -, -, heq⟩
      | ⟨q', hq, haccepts, -, heq⟩
  · simp only [System.request, TaskManager.call, heq]
    exact hi
  · -- Stopped at a refused task.
    cases hq
    have hadds : s.manager.NotMutual q := by simpa [KeepsPending] using hc haccepts
    have hps : front ⊆ (s.manager.sequence q).tasks := htasks ▸ List.subset_append_left _ _
    have henqueued := TaskManager.enqueued_enqueueTasks (S := S) front s.manager
    simp only [System.request, TaskManager.call, heq]
    intro q' hq' p hp hstatus
    simp only [henqueued.taskSequences, henqueued.sequence] at hq' hp
    exact pending_enqueueTasks hb ht hi hadds hps rfl rfl rfl (Or.inl hq') hp hstatus
  · cases hq
    cases addToQueue with
    | true =>
        have hadds : s.manager.NotMutual q := by simpa [KeepsPending] using hc haccepts
        have henqueued := TaskManager.enqueued_enqueueTasks (S := S)
          (s.manager.sequence q).tasks s.manager
        simp only [System.request, TaskManager.call, heq, if_true]
        intro q' hq' p hp hstatus
        simp only [henqueued.sequence] at hp
        refine pending_enqueueTasks hb ht hi hadds (List.Subset.refl _) rfl rfl rfl ?_ hp hstatus
        obtain hq' | hq' := List.mem_append.mp hq'
        · exact Or.inl hq'
        · exact Or.inr (List.mem_singleton.mp hq' ▸ List.Subset.refl _)
    | false =>
        have hidle := hc haccepts
        simp only [Bool.false_eq_true, if_false] at hidle
        simp only [System.request, TaskManager.call, heq, Bool.false_eq_true, if_false]
        intro q' hq' p hp hstatus
        obtain hq' | hq' := List.mem_append.mp hq'
        · exact hi q' hq' p hp hstatus
        · obtain rfl := List.mem_singleton.mp hq'
          exact hidle p hp hstatus

theorem matchTaskBySequenceName_eq (hb : h.WellBuilt) (hs : SameObjects h s.manager.toHeap)
    (hp : p ∈ (s.manager.sequence q).tasks) (name : String) :
    matchTaskBySequenceName name (s.manager.task p)
      = ((s.manager.sequence q).seqName == name) := by
  rw [hs.tasks] at hp
  obtain ⟨i, hi⟩ := List.mem_iff_getElem?.mp hp
  obtain ⟨hin, -, hname, -⟩ := hb.place q i p hi
  rw [matchTaskBySequenceName, hs.isInSequence, hs.sequenceName, hs.seqName, hin, hname]
  rfl

theorem System.IdlePending.request (hb : h.WellBuilt) (ht : Traced h added s) (hi : s.IdlePending)
    {r : Request} (hc : KeepsPending s (.request r)) : (s.request S r).IdlePending := by
  have hobjects : SameObjects s.manager.toHeap (s.request S r).manager.toHeap :=
    TaskManager.sameObjects_call r
  cases r with
  | addTaskSequence hasAttribute taskSequence addToQueue =>
      cases taskSequence with
      | none => exact hi
      | some q => exact System.IdlePending.addTaskSequence hb ht hi hc
  | removeTaskSequence name =>
      -- The tasks of the sequences of the name leave the queue, and no others do.
      refine hi.takeOut hobjects rfl List.filter_sublist.subset
        fun q hq p hp hstatus => ⟨Or.inl hstatus, fun hqueued => Or.inl ?_⟩
      refine List.mem_filter.mpr ⟨hqueued, ?_⟩
      rw [matchTaskBySequenceName_eq hb ht.objects hp name]
      exact (List.mem_filter.mp hq).2
  | revokeTaskSequence name =>
      refine hi.takeOut hobjects rfl (List.Subset.refl _) fun q hq p hp hstatus => ?_
      change ((s.manager.revokeTaskSequence name).2.task p).status = .idle at hstatus
      rw [TaskManager.status_revokeTaskSequence] at hstatus
      split at hstatus
      · simp at hstatus
      · rename_i hnot
        refine ⟨Or.inl hstatus, fun hqueued => Or.inl (List.mem_filter.mpr ⟨hqueued, ?_⟩)⟩
        rw [matchTaskBySequenceName_eq hb ht.objects hp name, Bool.not_eq_true',
          beq_eq_false_iff_ne]
        exact fun hname => hnot ⟨⟨q, hq, hname, hp⟩, hstatus⟩
  | revokeTask name =>
      refine hi.takeOut hobjects rfl (List.Subset.refl _) fun q hq p hp hstatus => ?_
      change ((s.manager.revokeTask name).2.task p).status = .idle at hstatus
      rw [TaskManager.status_revokeTask] at hstatus
      split at hstatus
      · simp at hstatus
      · rename_i hnot
        refine ⟨Or.inl hstatus, fun hqueued => Or.inl (List.mem_filter.mpr ⟨hqueued, ?_⟩)⟩
        rw [Bool.not_eq_true', matchTaskByName, beq_eq_false_iff_ne]
        exact fun hname => hnot ⟨⟨q, hq, hp⟩, hname, hstatus⟩
  | flushQueue =>
      exact hi.takeOut hobjects rfl (List.Subset.refl _) fun q hq p hp hstatus =>
        ⟨Or.inl hstatus, fun hqueued => Or.inr (hc q hq p hp hqueued hstatus)⟩
  | setSequenceTaskStatus id name status info =>
      exact hi.write hobjects rfl rfl rfl
        (fun _ => TaskManager.status_setSequenceTaskStatus) hc
  | setAsynchTaskStatus attrName status info =>
      exact hi.write hobjects rfl rfl rfl
        (fun _ => TaskManager.status_setAsynchTaskStatus') hc
  | clearAllSequenceTasks => exact fun q hq => (List.not_mem_nil hq).elim
  | clearSequenceTasks now historyTimeThr keepRunningTasks useUTC =>
      cases keepRunningTasks <;> exact hi.drop _
  | clearCompletedSequenceTasks now historyTimeThr useUTC => exact hi.drop _
  | wakeUp => exact hi
  | endThread => exact hi
  | setMaxNTasksInQueue val => exact hi
  | setMaxNTasksInCollection val => exact hi

theorem System.IdlePending.scan (hi : s.IdlePending) {m : TaskManager} (hready : s.worker = .ready)
    (hm : (s.manager.removeInQueue (matchTaskByStatus .expired)).Expiring m)
    (hq : q ∈ m.taskSequences) (hp : p ∈ (m.sequence q).tasks)
    (hstatus : (m.task p).status = .idle) : p ∈ m.taskQueue := by
  have hidle : (s.manager.task p).status = .idle := hm.status_eq (by decide) hstatus
  rw [hm.taskSequences] at hq
  rw [hm.sequence] at hp
  rw [hm.taskQueue]
  obtain hqueued | ⟨t, ht, -⟩ := hi q hq p hp hidle
  · exact List.mem_filter.mpr ⟨hqueued, by simp [matchTaskByStatus, hidle]⟩
  · simp [hready, Worker.held] at ht

theorem System.IdlePending.workerMove (hb : h.WellBuilt) (ht : Traced h added s)
    (hi : s.IdlePending) (hmove : WorkerMove s s') : s'.IdlePending := by
  cases hmove with
  | stay hworker =>
      intro q hq p hp hstatus
      refine (hi q hq p hp hstatus).imp_right ?_
      rintro ⟨t, hheld, hid⟩
      obtain rfl | ⟨hsleeping, -⟩ := hworker
      · exact ⟨t, hheld, hid⟩
      · simp [hsleeping, Worker.held] at hheld
  | mark hready hworker hm =>
      exact fun q hq p hp hstatus => Or.inl (hi.scan hready hm hq hp hstatus)
  | @pop _ m _ p₀ front back hready hm =>
      intro q hq p hp hstatus
      by_cases hpp : p = p₀
      · exact Or.inr ⟨m.task p₀, rfl, by rw [hpp]⟩
      · exact Or.inl ((List.mem_erase_of_ne hpp).mpr (hi.scan hready hm hq hp hstatus))
  | ran hpopped =>
      intro q hq p hp hstatus
      refine (hi q hq p hp hstatus).imp_right ?_
      rintro ⟨t, hheld, hid⟩
      exact ⟨t, by simpa [Worker.held, hpopped] using hheld, hid⟩
  | @report t outcome hhandled =>
      intro q hq p hp hstatus
      have hmem : p ∈ (h.sequence q).tasks := by
        have hs : SameObjects s.manager.toHeap (s.manager.reportTask t outcome).toHeap :=
          TaskManager.sameObjects_reportTask
        rwa [hs.tasks, ht.objects.tasks] at hp
      rw [TaskManager.status_reportTask] at hstatus
      split at hstatus
      · exact absurd hstatus (TaskManager.executedStatus_ne_idle _ _ _)
      rename_i hnot
      have hheld : s.worker.held = some t := by simp [hhandled, Worker.held]
      obtain hqueued | ⟨t', ht', hid⟩ := hi q hq p (by rwa [ht.objects.tasks]) hstatus
      · exact Or.inl hqueued
      · -- The task held is the one reported, so its status has just been written.
        obtain rfl : t = t' := Option.some.inj (hheld.symm.trans ht')
        obtain ⟨p', hcopy, q', -, hmem'⟩ := ht.held t hheld
        have hid' : t.id = (h.task p').id := Task.id_of_fixed hcopy
        obtain rfl : p' = p := by
          refine hb.id_inj q' q p' p hmem' hmem ?_
          rw [← hid', hid, ht.objects.id]
        have hname : t.cmdName = (h.task p').cmdName :=
          (congrArg Task.cmdName hcopy : t.fixed.cmdName = (h.task p').fixed.cmdName)
        refine absurd ⟨q, hq, ?_⟩ hnot
        rw [ht.objects.findTask, hb.findTask_eq_some_iff hmem]
        exact ⟨rfl, hid'.symm, hname.symm⟩

theorem System.IdlePending.step (hb : h.WellBuilt) (ht : Traced h added s) (hi : s.IdlePending)
    {e : Event} (hc : KeepsPending s e) : (s.step S e).IdlePending := by
  cases e with
  | request r => exact System.IdlePending.request hb ht hi hc
  | worker w => exact System.IdlePending.workerMove hb ht hi (s.workerMove w)

/-! ### Queued tasks -/

theorem Agree.queued_takeOut (ha : Agree s)
    (hs : SameObjects s.manager.toHeap s'.manager.toHeap)
    (hqueue : s'.manager.taskQueue ⊆ s.manager.taskQueue)
    (hkept : ∀ p ∈ s'.manager.taskQueue, ∀ q ∈ s.manager.taskSequences,
      p ∈ (s.manager.sequence q).tasks → q ∈ s'.manager.taskSequences) :
    ∀ p ∈ s'.manager.taskQueue, ∃ q ∈ s'.manager.taskSequences,
      p ∈ (s'.manager.sequence q).tasks := by
  intro p hp
  obtain ⟨q, hq, hmem⟩ := ha.queued p (hqueue hp)
  exact ⟨q, hkept p hp q hq hmem, hs.tasks ▸ hmem⟩

theorem Agree.queued_drop (ha : Agree s) {found : TaskSequence → Bool}
    (hdrops : s.manager.DropsNoQueued found) :
    ∀ p ∈ s.manager.taskQueue, ∃ q ∈ (s.manager.removeSequences found).taskSequences,
      p ∈ (s.manager.sequence q).tasks := by
  intro p hp
  obtain ⟨q, hq, hmem⟩ := ha.queued p hp
  refine ⟨q, List.mem_filter.mpr ⟨hq, ?_⟩, hmem⟩
  rw [Bool.not_eq_true', ← Bool.not_eq_true]
  exact fun hfound => hdrops q hq hfound p hmem hp

theorem Agree.queued_addTaskSequence (ha : Agree s) {hasAttribute : String → Bool}
    {addToQueue : Bool}
    (hc : KeepsAgreement s (.request (.addTaskSequence hasAttribute (some q) addToQueue))) :
    ∀ p ∈ (s.request S (.addTaskSequence hasAttribute (some q) addToQueue)).manager.taskQueue,
      ∃ q' ∈ (s.request S
          (.addTaskSequence hasAttribute (some q) addToQueue)).manager.taskSequences,
        p ∈ ((s.request S
          (.addTaskSequence hasAttribute (some q) addToQueue)).manager.sequence q').tasks := by
  rcases s.manager.addTaskSequence_cases (S := S) hasAttribute (some q) addToQueue s.signals with
    ⟨-, heq⟩ | ⟨q', front, p₀, back, hq, haccepts, rfl, htasks, hfront, hasynch, hattr, heq⟩
      | ⟨q', hq, haccepts, -, heq⟩
  · simp only [System.request, TaskManager.call, heq]
    exact ha.queued
  · cases hq
    have hadds : s.manager.AddsWhole hasAttribute q := by simpa [KeepsAgreement] using hc haccepts
    have hps : front ⊆ (s.manager.sequence q).tasks := htasks ▸ List.subset_append_left _ _
    have henqueued := TaskManager.enqueued_enqueueTasks (S := S) front s.manager
    have htracked : ∀ p ∈ front, q ∈ s.manager.taskSequences := by
      intro p hp
      obtain htracked | hnone | hhead := hadds.refused
      · exact htracked
      · exact absurd ⟨hasynch, hattr⟩ (hnone p₀ (by simp [htasks]))
      · rw [TaskManager.front_eq_nil htasks hfront hhead] at hp
        exact (List.not_mem_nil hp).elim
    simp only [System.request, TaskManager.call, heq, henqueued.taskSequences, henqueued.sequence]
    intro p hp
    obtain hp | hp := List.mem_append.mp (henqueued.subset hp)
    · exact ⟨q, htracked p hp, hps hp⟩
    · exact ha.queued p hp
  · cases hq
    have henqueued := TaskManager.enqueued_enqueueTasks (S := S)
      (if addToQueue then (s.manager.sequence q).tasks else []) s.manager
    simp only [System.request, TaskManager.call, heq, henqueued.sequence]
    intro p hp
    obtain hp | hp := List.mem_append.mp (henqueued.subset hp)
    · refine ⟨q, by simp, ?_⟩
      cases addToQueue with
      | true => simpa using hp
      | false => simp at hp
    · obtain ⟨q', hq', hmem⟩ := ha.queued p hp
      exact ⟨q', List.mem_append_left _ hq', hmem⟩

theorem Agree.queued_request (hb : h.WellBuilt) (ht : Traced h added s) (ha : Agree s)
    {r : Request} (hc : KeepsAgreement s (.request r)) :
    ∀ p ∈ (s.request S r).manager.taskQueue, ∃ q ∈ (s.request S r).manager.taskSequences,
      p ∈ ((s.request S r).manager.sequence q).tasks := by
  have hobjects : SameObjects s.manager.toHeap (s.request S r).manager.toHeap :=
    TaskManager.sameObjects_call r
  cases r with
  | addTaskSequence hasAttribute taskSequence addToQueue =>
      cases taskSequence with
      | none => exact ha.queued
      | some q => exact ha.queued_addTaskSequence hc
  | removeTaskSequence name =>
      refine ha.queued_takeOut hobjects List.filter_sublist.subset fun p hp q hq hmem => ?_
      have hkept := (List.mem_filter.mp hp).2
      rw [matchTaskBySequenceName_eq hb ht.objects hmem name] at hkept
      exact List.mem_filter.mpr ⟨hq, hkept⟩
  | revokeTaskSequence name =>
      exact ha.queued_takeOut hobjects List.filter_sublist.subset fun _ _ q hq _ => hq
  | revokeTask name =>
      exact ha.queued_takeOut hobjects List.filter_sublist.subset fun _ _ q hq _ => hq
  | flushQueue => exact fun p hp => (List.not_mem_nil hp).elim
  | setSequenceTaskStatus id name status info =>
      exact ha.queued_takeOut hobjects (List.Subset.refl _) fun _ _ q hq _ => hq
  | setAsynchTaskStatus attrName status info =>
      exact ha.queued_takeOut hobjects (List.Subset.refl _) fun _ _ q hq _ => hq
  | clearAllSequenceTasks =>
      intro p hp
      obtain ⟨q, hq, hmem⟩ := ha.queued p hp
      exact absurd hp (hc q hq rfl p hmem)
  | clearSequenceTasks now historyTimeThr keepRunningTasks useUTC =>
      cases keepRunningTasks with
      | true => exact ha.queued_drop hc
      | false => exact ha.queued_drop hc
  | clearCompletedSequenceTasks now historyTimeThr useUTC => exact ha.queued_drop hc
  | wakeUp => exact ha.queued
  | endThread => exact ha.queued
  | setMaxNTasksInQueue val => exact ha.queued
  | setMaxNTasksInCollection val => exact ha.queued

theorem Agree.step (hb : h.WellBuilt) (ht : Traced h added s) (ha : Agree s) {e : Event}
    (hc : KeepsAgreement s e) : Agree (s.step S e) where
  queued := by
    cases e with
    | request r => exact ha.queued_request hb ht hc
    | worker w =>
        have hmove := s.workerMove w
        exact ha.queued_takeOut hmove.sameObjects hmove.taskQueue_sublist.subset
          fun _ _ q hq _ => hmove.taskSequences ▸ hq
  pending := System.IdlePending.step hb ht ha.pending hc.keepsPending

variable {devName : String} {events : List Event}

/-- **The queue and the collection agree** in every state of a run whose steps all meet the
condition. -/
theorem agree_of_keepsAgreement (hb : h.WellBuilt)
    (hrun : Along (System.step S) KeepsAgreement (System.create h devName) events) :
    ∀ past, past <+: events → Agree (run (System.step S) (System.create h devName) past) := by
  rintro past ⟨rest, rfl⟩
  have hstart : (∃ added, Traced h added (System.create h devName))
      ∧ Agree (System.create h devName) :=
    ⟨⟨[], Traced.create h devName⟩, ⟨fun p hp => (List.not_mem_nil hp).elim,
      fun q hq => (List.not_mem_nil hq).elim⟩⟩
  refine (run_invariant (I := fun s => (∃ added, Traced h added s) ∧ Agree s) ?_ hstart
    (along_append.mp hrun).1).2
  rintro s e ⟨⟨added, ht⟩, ha⟩ hc
  exact ⟨⟨_, ht.step e⟩, ha.step hb ht hc⟩

end

/-- A queue flushed when its task has been run. -/
theorem agree_of_keepsAgreement_slew :
    Agree (run (System.step SetImpl.linear) (System.create Heap.oneAsynchTask "dish")
      [.request (.addTaskSequence (fun _ => true) (some 0) true), .worker (.popTask Clock.origin),
        .worker (.runTask .done), .worker .reportTask, .request .flushQueue]) := by
  refine agree_of_keepsAgreement Heap.wellBuilt_oneAsynchTask ?_ _ List.prefix_rfl
  refine ⟨fun _ => ⟨Or.inr (Or.inl fun p _ hrefuses => ?_), fun p hp p' hp' hne => ?_⟩,
    trivial, trivial, trivial, ?_, trivial⟩
  · exact Bool.noConfusion hrefuses.2
  · have htasks : ((System.create Heap.oneAsynchTask "dish").manager.sequence 0).tasks = [0] := rfl
    rw [htasks, List.mem_singleton] at hp hp'
    exact absurd (hp.trans hp'.symm) hne
  · have hqueue : (run (System.step SetImpl.linear) (System.create Heap.oneAsynchTask "dish")
        [.request (.addTaskSequence (fun _ => true) (some 0) true), .worker (.popTask Clock.origin),
          .worker (.runTask .done), .worker .reportTask]).manager.taskQueue = [] := by
      decide +kernel
    exact fun p hp => absurd (hqueue ▸ hp) List.not_mem_nil

/-- A queue flushed too early leaves an `IDLE` task that is never run. -/
theorem not_agree_slew :
    Heap.oneAsynchTask.WellBuilt
      ∧ ¬ Agree (run (System.step SetImpl.linear) (System.create Heap.oneAsynchTask "dish")
        [.request (.addTaskSequence (fun _ => true) (some 0) true), .request .flushQueue]) := by
  refine ⟨Heap.wellBuilt_oneAsynchTask, fun hagree => ?_⟩
  obtain hqueued | ⟨t, ht, -⟩ := hagree.pending 0 (by decide) 0 (by decide) (by decide)
  · exact (List.not_mem_nil hqueued).elim
  · cases ht

end DshLmc
