import DshLmc.Proof.Steps

/-!
# Statuses of tasks and sequences

The status of a sequence is a summary of the statuses of its tasks, stored in the sequence. Every
method that writes the status of a task should refresh it. The methods that report, revoke and
receive events do. `AddTaskSequence`, which makes tasks `IDLE`, and `PopTask`, which marks them
`EXPIRED`, do not, and so a stored status can be stale, in the list that
`GetTaskSequenceStatusInfo` returns and in the test by which `ClearSequenceTasks` selects what to
keep.
-/

namespace DshLmc

/-- The status of a sequence whose tasks have these statuses. -/
def summaryStatus (statuses : List TaskStatus) : TaskStatus :=
  let oneTaskFailed := statuses.any fun status => status == .aborted || status == .failed
  let oneTaskTimedOut := statuses.any (· == .expired)
  if oneTaskTimedOut && !oneTaskFailed then .expired
  else if statuses.any (· == .canceled) then .canceled
  else if oneTaskFailed then .failed
  else if statuses.any (· == .running) || statuses.any (· == .completed) && statuses.any (· == .idle)
    then .running
  else if statuses.isEmpty then .canceled
  else if statuses.all (· == .idle) then .idle
  else if statuses.all (· == .completed) then .completed
  else .unknown

theorem summarize_fst (seqName seqId : String) (tasks : List Task) :
    (summarize seqName seqId tasks).1 = summaryStatus (tasks.map Task.status) := by
  have hcanceled : tasks.all (·.status == .canceled) = true →
      tasks.any (·.status == .canceled) = true ∨ tasks = [] := by
    cases tasks with
    | nil => simp
    | cons t rest => simp +contextual
  simp only [summarize, summaryStatus, apply_ite Prod.fst, List.any_map, List.all_map,
    Function.comp_def, List.isEmpty_map]
  by_cases htimedOut : (tasks.any (·.status == .expired)
      && !tasks.any fun t => t.status == .aborted || t.status == .failed) = true
  · simp only [htimedOut, if_true]
  by_cases hone : tasks.any (·.status == .canceled) = true
  · simp only [hone, if_true]
  by_cases hfailed : (tasks.any fun t => t.status == .aborted || t.status == .failed) = true
  · simp only [hone, hfailed, if_true]
  have hexpired : tasks.any (·.status == .expired) = false := by simpa [hfailed] using htimedOut
  cases tasks with
  | nil => rfl
  | cons t rest =>
      have hall : (t :: rest).all (·.status == .canceled) = false := by
        rw [← Bool.not_eq_true]
        exact fun habs => (hcanceled habs).elim hone (by simp)
      rw [Bool.not_eq_true] at hone hfailed
      simp only [hone, hfailed, hexpired, hall, Bool.false_eq_true, if_false, Bool.not_false,
        Bool.and_true, List.isEmpty_cons]
      cases (t :: rest).any (·.status == .running) <;>
        cases ((t :: rest).any (·.status == .completed) && (t :: rest).any (·.status == .idle)) <;>
        simp

theorem summaryStatus_idle {statuses : List TaskStatus} (hne : statuses ≠ [])
    (hidle : ∀ status ∈ statuses, status = .idle) : summaryStatus statuses = .idle := by
  obtain ⟨n, rfl⟩ : ∃ n, statuses = List.replicate (n + 1) .idle := by
    refine ⟨statuses.length - 1, ?_⟩
    rw [Nat.sub_add_cancel (List.length_pos_iff.mpr hne)]
    exact List.eq_replicate_length.mpr hidle
  simp [summaryStatus, List.any_replicate, List.all_replicate]

/-- The stored status of the sequence is the one `ComputeStatus` would store now. -/
def Heap.UpToDate (h : Heap) (q : TaskSequencePtr) : Prop :=
  (h.sequence q).status = (h.summary q).1

instance (h : Heap) (q : TaskSequencePtr) : Decidable (h.UpToDate q) :=
  inferInstanceAs (Decidable (_ = _))

section

variable {h h' : Heap} {p : TaskPtr} {q q' : TaskSequencePtr} {status : TaskStatus}
  {id name attrName info : String}

theorem Heap.summary_fst :
    (h.summary q).1 = summaryStatus ((h.sequence q).tasks.map fun p => (h.task p).status) := by
  rw [Heap.summary, summarize_fst, Heap.tasksOf, List.map_map]
  rfl

theorem Heap.UpToDate.congr (hu : h.UpToDate q)
    (hstored : (h'.sequence q).status = (h.sequence q).status)
    (htasks : (h'.sequence q).tasks = (h.sequence q).tasks)
    (hstatus : ∀ p ∈ (h.sequence q).tasks, (h'.task p).status = (h.task p).status) :
    h'.UpToDate q := by
  rw [Heap.UpToDate, Heap.summary_fst, hstored, htasks, List.map_congr_left hstatus,
    ← Heap.summary_fst]
  exact hu

/-- The sequence and the statuses of its tasks are as they were, or the stored status has been
refreshed since. -/
inductive Heap.Refreshed (h h' : Heap) (q : TaskSequencePtr) : Prop
  | kept (hstored : (h'.sequence q).status = (h.sequence q).status)
      (htasks : (h'.sequence q).tasks = (h.sequence q).tasks)
      (hstatus : ∀ p ∈ (h.sequence q).tasks, (h'.task p).status = (h.task p).status) :
      Refreshed h h' q
  | refreshed (hu : h'.UpToDate q) : Refreshed h h' q

namespace Heap.Refreshed

theorem refl (h : Heap) (q : TaskSequencePtr) : h.Refreshed h q := .kept rfl rfl fun _ _ => rfl

theorem trans {h'' : Heap} (h₁ : h.Refreshed h' q) (h₂ : h'.Refreshed h'' q) :
    h.Refreshed h'' q := by
  cases h₂ with
  | refreshed hu => exact .refreshed hu
  | kept hstored' htasks' hstatus' =>
      cases h₁ with
      | refreshed hu => exact .refreshed (hu.congr hstored' htasks' hstatus')
      | kept hstored htasks hstatus =>
          refine .kept (hstored'.trans hstored) (htasks'.trans htasks) fun p hp => ?_
          exact (hstatus' p (htasks ▸ hp)).trans (hstatus p hp)

theorem upToDate (hr : h.Refreshed h' q) (hu : h.UpToDate q) : h'.UpToDate q := by
  cases hr with
  | kept hstored htasks hstatus => exact hu.congr hstored htasks hstatus
  | refreshed hu' => exact hu'

end Heap.Refreshed

/-- **A write and a refresh.** Tasks of one sequence are written, and the sequence is refreshed. The
others do not see it, since a task is in one sequence only. -/
theorem Heap.refreshed_computeStatus (hb : h.WellBuilt) (hsequence : h'.sequence = h.sequence)
    (htask : ∀ p, p ∉ (h.sequence q).tasks → (h'.task p).status = (h.task p).status) :
    h.Refreshed (h'.computeStatus q) q' := by
  have hobjects : SameObjects h' (h'.computeStatus q) := sameObjects_computeStatus
  by_cases hq : q' = q
  · subst hq
    refine .refreshed ?_
    rw [Heap.UpToDate, status_computeStatus, if_pos rfl, Heap.summary_fst, Heap.summary_fst,
      hobjects.tasks, task_computeStatus]
  · refine .kept ?_ (by rw [hobjects.tasks, hsequence]) fun p hp => ?_
    · rw [status_computeStatus, if_neg hq, hsequence]
    · rw [task_computeStatus]
      exact htask p fun hp' => hq (hb.sequence_eq hp hp')

theorem Heap.refreshed_setStatus (hb : h.WellBuilt) (hp : p ∈ (h.sequence q).tasks) :
    h.Refreshed ((h.setStatus p status info).computeStatus q) q' := by
  refine Heap.refreshed_computeStatus hb rfl fun p' hp' => ?_
  rw [status_setStatus, if_neg fun heq : p' = p => hp' (heq ▸ hp)]

namespace TaskManager

theorem refreshed_setStatusInSequence (hb : h.WellBuilt) :
    h.Refreshed (setStatusInSequence id name status info h q) q' := by
  unfold setStatusInSequence
  split
  · exact .refl h q'
  · rename_i p hfind
    have hp : p ∈ (h.sequence q).tasks := List.mem_of_find?_eq_some hfind
    obtain ⟨i, hi⟩ := List.mem_iff_getElem?.mp hp
    rw [if_pos (hb.place q i p hi).1]
    exact Heap.refreshed_setStatus hb hp

theorem refreshed_setAsynchTaskStatus (hb : h.WellBuilt) :
    h.Refreshed (h.setAsynchTaskStatus attrName status info q) q' := by
  unfold Heap.setAsynchTaskStatus
  split
  · exact .refl h q'
  · rename_i p hfind
    exact Heap.refreshed_setStatus hb (List.mem_of_find?_eq_some hfind)

theorem sequence_cancelTasks {selected : Task → Bool} (ps : List TaskPtr) (h : Heap) :
    (cancelTasks selected ps h).2.sequence = h.sequence := by
  induction ps generalizing h with
  | nil => rfl
  | cons p rest ih =>
      simp only [cancelTasks]
      split
      · exact ih h
      · exact ih (h.setStatus p .canceled "Task was canceled")

theorem refreshed_cancelInSequence {selected : Task → Bool} (hb : h.WellBuilt) :
    h.Refreshed (cancelInSequence selected h q) q' := by
  unfold cancelInSequence
  split
  · rename_i h' heq
    have hsnd : (cancelTasks selected (h.sequence q).tasks h).2 = h' := by rw [heq]
    refine Heap.refreshed_computeStatus hb ?_ fun p hp => ?_
    · rw [← hsnd, sequence_cancelTasks]
    · rw [← hsnd, status_cancelTasks, if_neg fun hcond => hp hcond.1]
  · rename_i h' heq
    have hself : (cancelTasks selected (h.sequence q).tasks h).2 = h :=
      cancelTasks_eq_self (by rw [heq])
    rw [heq] at hself
    obtain rfl : h' = h := hself
    exact .refl h' q'

theorem refreshed_foldl {body : Heap → TaskSequencePtr → Heap} (hb : h.WellBuilt)
    (hobjects : ∀ h q, SameObjects h (body h q))
    (hbody : ∀ (h : Heap) q, h.WellBuilt → h.Refreshed (body h q) q') (qs : List TaskSequencePtr) :
    h.Refreshed (qs.foldl body h) q' := by
  have hrun : (run body h qs).WellBuilt ∧ h.Refreshed (run body h qs) q' :=
    run_preserves (I := fun h' => h'.WellBuilt ∧ h.Refreshed h' q')
      (fun h' q ⟨hb', hr⟩ =>
        ⟨hb'.of_samePlaces (hobjects h' q).samePlaces, hr.trans (hbody h' q hb')⟩)
      qs ⟨hb, .refl h q'⟩
  exact hrun.2

theorem refreshed_setSequenceTaskStatus {m : TaskManager} (hb : m.WellBuilt) :
    m.Refreshed (m.setSequenceTaskStatus id name status info).2.toHeap q :=
  refreshed_foldl hb (fun _ _ => sameObjects_setStatusInSequence)
    (fun _ _ => refreshed_setStatusInSequence) m.taskSequences

theorem refreshed_call {S : SetImpl TaskPtr} {m : TaskManager} {signals : Signals} {r : Request}
    (hb : m.WellBuilt) (hr : ∀ hasAttribute q addToQueue,
      r ≠ .addTaskSequence hasAttribute (some q) addToQueue) :
    m.Refreshed (m.call S r signals).2.2.toHeap q := by
  cases r with
  | addTaskSequence hasAttribute taskSequence addToQueue =>
      cases taskSequence with
      | none => exact .refl _ _
      | some q => exact absurd rfl (hr hasAttribute q addToQueue)
  | revokeTaskSequence name =>
      refine refreshed_foldl hb (fun h q => ?_) (fun h q hb => ?_) m.taskSequences
      · split
        · exact SameObjects.refl h
        · exact sameObjects_cancelInSequence
      · split
        · exact .refl _ _
        · exact refreshed_cancelInSequence hb
  | revokeTask name =>
      exact refreshed_foldl hb (fun _ _ => sameObjects_cancelInSequence)
        (fun _ _ => refreshed_cancelInSequence) m.taskSequences
  | setSequenceTaskStatus id name status info => exact refreshed_setSequenceTaskStatus hb
  | setAsynchTaskStatus attrName status info =>
      exact refreshed_foldl hb (fun _ _ => sameObjects_setAsynchTaskStatus)
        (fun _ _ => refreshed_setAsynchTaskStatus) m.taskSequences
  | clearSequenceTasks now historyTimeThr keepRunningTasks useUTC =>
      cases keepRunningTasks <;> exact .refl _ _
  | _ => exact .refl _ _

end TaskManager

end

/-! ### Every step -/

/-- Every tracked sequence is up to date, and the list of statuses says so. -/
structure NeverStale (m : TaskManager) : Prop where
  upToDate : ∀ q ∈ m.taskSequences, m.UpToDate q
  reported : ∀ useDevAttrFilter devAttrName,
    ∀ info ∈ m.getTaskSequenceStatusInfo useDevAttrFilter devAttrName,
      ∃ q ∈ m.taskSequences, info.taskName = (m.sequence q).seqName
        ∧ info.status = (m.summary q).1

theorem neverStale_of_upToDate {m : TaskManager} (hu : ∀ q ∈ m.taskSequences, m.UpToDate q) :
    NeverStale m := by
  refine ⟨hu, fun useDevAttrFilter devAttrName info hinfo => ?_⟩
  obtain ⟨q, hq, rfl⟩ := List.mem_map.mp hinfo
  have htracked := List.mem_of_mem_filter hq
  exact ⟨q, htracked, rfl, hu q htracked⟩

/-- The walk of `PopTask` comes to no task that has timed out. -/
def TaskManager.MarksNone (m : TaskManager) (now : Clock) : Prop :=
  ∀ front p back, m.taskQueue = front ++ p :: back →
    (∀ p' ∈ front, m.isRunnable now p' = false) → (m.task p).isExpirationReached now = false

/-- The stored status of the sequence fits the tasks that `AddTaskSequence` makes `IDLE`. -/
structure TaskManager.AddsUpToDate (m : TaskManager) (hasAttribute : String → Bool)
    (q : TaskSequencePtr) : Prop where
  whole : (∀ p ∈ (m.sequence q).tasks, ¬ m.Refuses hasAttribute p) →
    (m.sequence q).status = .idle
  partly : q ∈ m.taskSequences → (∃ p ∈ (m.sequence q).tasks, m.Refuses hasAttribute p) →
    ∀ p ∈ (m.sequence q).tasks.head?, m.Refuses hasAttribute p

/-- The step makes no stored status stale. -/
def KeepsUpToDate (s : System) : Event → Prop
  | .request (.addTaskSequence hasAttribute (some q) addToQueue) =>
      s.manager.Accepts q →
        if addToQueue then s.manager.AddsUpToDate hasAttribute q else s.manager.UpToDate q
  | .worker (.popTask now) =>
      s.worker = .ready → s.signals.endSignal = false →
        (s.manager.removeInQueue (matchTaskByStatus .expired)).MarksNone now
  | _ => True

section

variable {S : SetImpl TaskPtr} {h : Heap} {added : List TaskSequencePtr} {s : System}
  {m : TaskManager} {q : TaskSequencePtr} {now : Clock}

theorem TaskManager.scanQueue_eq_self {ps : List TaskPtr} (waiting : Option TaskPtr)
    (hnone : ∀ front p back, ps = front ++ p :: back →
      (∀ p' ∈ front, m.isRunnable now p' = false) → (m.task p).isExpirationReached now = false) :
    (scanQueue now ps waiting m).manager = m := by
  induction ps generalizing waiting with
  | nil => rfl
  | cons p rest ih =>
      simp only [scanQueue]
      split
      · rfl
      rename_i hrun
      rw [Bool.not_eq_true] at hrun
      have hrest : ∀ waiting, (scanQueue now rest waiting m).manager = m := by
        refine fun waiting => ih waiting fun front p' back heq hfront => ?_
        refine hnone (p :: front) p' back (by rw [heq]; rfl) fun p'' hp'' => ?_
        obtain rfl | hp'' := List.mem_cons.mp hp''
        · exact hrun
        · exact hfront p'' hp''
      rw [if_neg (by simp [hnone [] p rest rfl (by simp)])]
      split
      · exact hrest (some p)
      · exact hrest waiting

theorem TaskManager.popTask_toHeap (signals : Signals)
    (hnone : signals.endSignal = false →
      (m.removeInQueue (matchTaskByStatus .expired)).MarksNone now) :
    (m.popTask now signals).2.2.toHeap = m.toHeap
      ∧ (m.popTask now signals).2.2.taskSequences = m.taskSequences := by
  unfold popTask
  split
  · exact ⟨rfl, rfl⟩
  dsimp only
  split
  · exact ⟨rfl, rfl⟩
  rename_i hend
  split
  · exact ⟨rfl, rfl⟩
  have hself := scanQueue_eq_self none (hnone (by simpa using hend))
  have hheap := congrArg TaskManager.toHeap hself
  have hsequences := congrArg (·.taskSequences) hself
  split
  · exact ⟨hheap, hsequences⟩
  · exact ⟨hheap, hsequences⟩
  · exact ⟨hheap, hsequences⟩

theorem TaskManager.upToDate_enqueueTasks (hb : m.WellBuilt) {ps : List TaskPtr}
    (hps : ps ⊆ (m.sequence q).tasks) {q' : TaskSequencePtr} (hq : q' ≠ q)
    (hu : m.UpToDate q') : (m.enqueueTasks S ps).UpToDate q' := by
  have henqueued := enqueued_enqueueTasks (S := S) ps m
  refine hu.congr (by rw [henqueued.sequence]) (by rw [henqueued.sequence]) fun p hp => ?_
  rw [henqueued.status, if_neg fun hmem => hq (hb.sequence_eq hp (hps hmem))]

theorem TaskManager.upToDate_enqueueTasks_self (hne : (m.sequence q).tasks ≠ [])
    (hidle : (m.sequence q).status = .idle) :
    (m.enqueueTasks S (m.sequence q).tasks).UpToDate q := by
  have henqueued := enqueued_enqueueTasks (S := S) (m.sequence q).tasks m
  rw [Heap.UpToDate, Heap.summary_fst, summaryStatus_idle]
  · rw [henqueued.sequence]
    exact hidle
  · rw [henqueued.sequence]
    simpa using hne
  · intro status hstatus
    obtain ⟨p, hp, rfl⟩ := List.mem_map.mp hstatus
    rw [henqueued.sequence] at hp
    rw [henqueued.status, if_pos hp]

theorem upToDate_addTaskSequence (hb : s.manager.WellBuilt)
    (hu : ∀ q ∈ s.manager.taskSequences, s.manager.UpToDate q)
    {hasAttribute : String → Bool} {addToQueue : Bool}
    (hc : KeepsUpToDate s (.request (.addTaskSequence hasAttribute (some q) addToQueue))) :
    ∀ q' ∈ (s.request S (.addTaskSequence hasAttribute (some q) addToQueue)).manager.taskSequences,
      (s.request S (.addTaskSequence hasAttribute (some q) addToQueue)).manager.UpToDate q' := by
  rcases s.manager.addTaskSequence_cases (S := S) hasAttribute (some q) addToQueue s.signals with
    ⟨-, heq⟩ | ⟨q₀, front, p₀, back, hq, haccepts, rfl, htasks, hfront, hasynch, hattr, heq⟩
      | ⟨q₀, hq, haccepts, hall, heq⟩
  · simp only [System.request, TaskManager.call, heq]
    exact hu
  · -- Stopped at a refused task: the first one, if the sequence is tracked.
    cases hq
    have hadds : s.manager.AddsUpToDate hasAttribute q := by
      simpa [KeepsUpToDate] using hc haccepts
    simp only [System.request, TaskManager.call, heq]
    intro q' hq'
    rw [(TaskManager.enqueued_enqueueTasks (S := S) front s.manager).taskSequences] at hq'
    by_cases hqq : q' = q
    · subst hqq
      have hhead := hadds.partly hq' ⟨p₀, by simp [htasks], hasynch, hattr⟩
      rw [TaskManager.front_eq_nil htasks hfront hhead]
      exact hu q' hq'
    · exact TaskManager.upToDate_enqueueTasks hb (htasks ▸ List.subset_append_left _ _) hqq
        (hu q' hq')
  · cases hq
    cases addToQueue with
    | true =>
        have hadds : s.manager.AddsUpToDate hasAttribute q := by
          simpa [KeepsUpToDate] using hc haccepts
        simp only [System.request, TaskManager.call, heq, if_true]
        intro q' hq'
        by_cases hqq : q' = q
        · subst hqq
          have hidle : (s.manager.sequence q').status = .idle :=
            hadds.whole fun p hp hrefuses =>
              Bool.false_ne_true (hrefuses.2.symm.trans (hall rfl p hp hrefuses.1))
          exact TaskManager.upToDate_enqueueTasks_self haccepts.1 hidle
        · obtain hq' | hq' := List.mem_append.mp hq'
          · exact TaskManager.upToDate_enqueueTasks hb (List.Subset.refl _) hqq (hu q' hq')
          · exact absurd (List.mem_singleton.mp hq') hqq
    | false =>
        have hgiven := hc haccepts
        simp only [Bool.false_eq_true, if_false] at hgiven
        simp only [System.request, TaskManager.call, heq, Bool.false_eq_true, if_false]
        intro q' hq'
        obtain hq' | hq' := List.mem_append.mp hq'
        · exact hu q' hq'
        · exact List.mem_singleton.mp hq' ▸ hgiven

theorem upToDate_request (hb : s.manager.WellBuilt)
    (hu : ∀ q ∈ s.manager.taskSequences, s.manager.UpToDate q) {r : Request}
    (hc : KeepsUpToDate s (.request r)) :
    ∀ q ∈ (s.request S r).manager.taskSequences, (s.request S r).manager.UpToDate q := by
  by_cases hr : ∃ hasAttribute q addToQueue, r = .addTaskSequence hasAttribute (some q) addToQueue
  · obtain ⟨hasAttribute, q, addToQueue, rfl⟩ := hr
    exact upToDate_addTaskSequence hb hu hc
  · simp only [not_exists] at hr
    intro q hq
    have hsublist : (s.manager.call S r s.signals).2.2.taskSequences.Sublist _ :=
      (TaskManager.call_sublist hr).2
    have htracked := hsublist.subset hq
    exact (TaskManager.refreshed_call hb hr).upToDate (hu q htracked)

theorem upToDate_workerStep (hb : s.manager.WellBuilt)
    (hu : ∀ q ∈ s.manager.taskSequences, s.manager.UpToDate q) {w : WorkerStep}
    (hc : KeepsUpToDate s (.worker w)) :
    ∀ q ∈ (s.workerStep w).manager.taskSequences, (s.workerStep w).manager.UpToDate q := by
  obtain hsame | ⟨now, rfl, hready, hpop⟩ | ⟨task, outcome, hreport⟩ :=
    s.manager_workerStep_cases w
  · rwa [hsame]
  · obtain ⟨hheap, hsequences⟩ := s.manager.popTask_toHeap s.signals (hc hready)
    intro q hq
    rw [hpop, hsequences] at hq
    rw [hpop, hheap]
    exact hu q hq
  · intro q hq
    rw [hreport] at hq ⊢
    exact (TaskManager.refreshed_setSequenceTaskStatus hb).upToDate (hu q hq)

variable {devName : String} {events : List Event}

/-- **Stored statuses are up to date** in every state of a run whose steps all meet the
condition. -/
theorem neverStale_of_keepsUpToDate (hb : h.WellBuilt)
    (hrun : Along (System.step S) KeepsUpToDate (System.create h devName) events) :
    ∀ past, past <+: events →
      NeverStale (run (System.step S) (System.create h devName) past).manager := by
  rintro past ⟨rest, rfl⟩
  have hstart : SameObjects h (System.create h devName).manager.toHeap
      ∧ ∀ q ∈ (System.create h devName).manager.taskSequences,
        (System.create h devName).manager.UpToDate q :=
    ⟨SameObjects.refl h, fun q hq => (List.not_mem_nil hq).elim⟩
  refine neverStale_of_upToDate (run_invariant (I := fun s => SameObjects h s.manager.toHeap
    ∧ ∀ q ∈ s.manager.taskSequences, s.manager.UpToDate q) ?_ hstart (along_append.mp hrun).1).2
  rintro s e ⟨hobjects, hu⟩ hc
  have hb' : s.manager.WellBuilt := hb.of_samePlaces hobjects.samePlaces
  refine ⟨hobjects.trans (System.sameObjects_step e), ?_⟩
  cases e with
  | request r => exact upToDate_request hb' hu hc
  | worker w => exact upToDate_workerStep hb' hu hc

end

def oneIdleTask : Heap :=
  (Heap.oneAsynchTask.setStatus 0 .idle "").computeStatus 0

theorem wellBuilt_oneIdleTask : oneIdleTask.WellBuilt :=
  Heap.wellBuilt_oneAsynchTask.of_samePlaces
    (sameObjects_setStatus.trans sameObjects_computeStatus).samePlaces

theorem neverStale_of_keepsUpToDate_slew :
    NeverStale (run (System.step SetImpl.linear) (System.create oneIdleTask "dish")
      [.request (.addTaskSequence (fun _ => true) (some 0) true), .worker (.popTask Clock.origin),
        .worker (.runTask .done), .worker .reportTask]).manager := by
  refine neverStale_of_keepsUpToDate wellBuilt_oneIdleTask ?_ _ List.prefix_rfl
  refine ⟨fun _ => ⟨fun _ => by decide, fun hq => (List.not_mem_nil hq).elim⟩,
    fun _ _ front p back hqueue _ => ?_, trivial, trivial, trivial⟩
  have hone : [0] = front ++ p :: back := hqueue
  cases front with
  | nil =>
      obtain ⟨rfl, -⟩ : 0 = p ∧ [] = back := by simpa using hone
      decide +kernel
  | cons p' rest => simp at hone

/-- A sequence just added keeps the status it was made with, and a sequence whose task `PopTask`
finds timed out keeps the one it had. -/
theorem not_neverStale_slew :
    (Heap.oneAsynchTask.WellBuilt
        ∧ ¬ NeverStale (run (System.step SetImpl.linear) (System.create Heap.oneAsynchTask "dish")
          [.request (.addTaskSequence (fun _ => true) (some 0) true)]).manager)
      ∧ oneIdleTask.WellBuilt
        ∧ ¬ NeverStale (run (System.step SetImpl.linear) (System.create oneIdleTask "dish")
          [.request (.addTaskSequence (fun _ => true) (some 0) true),
            .worker (.popTask { utc := 30000000, localTime := 30000000 })]).manager := by
  refine ⟨⟨Heap.wellBuilt_oneAsynchTask, fun hnever => ?_⟩, wellBuilt_oneIdleTask, fun hnever => ?_⟩
  · exact absurd (hnever.upToDate 0 (by decide)) (by decide)
  · exact absurd (hnever.upToDate 0 (by decide +kernel)) (by decide +kernel)

section

variable (attrName : String) (status : TaskStatus) (info : String) (m : TaskManager)

/-- An event changes the status of running tasks only. -/
def ChangesOnlyRunning : Prop :=
  ∀ p, ((m.setAsynchTaskStatus attrName status info).2.task p).status ≠ (m.task p).status →
    (m.task p).isAsynch = true ∧ (m.task p).statusAttrName = attrName
      ∧ (m.task p).status = .running

/-- An event changes the status of the first asynchronous task that watches the attribute, in each
tracked sequence, and a task among these that is queued or running gets the status. -/
structure ChangesFirstWatching : Prop where
  changed : ∀ p,
    ((m.setAsynchTaskStatus attrName status info).2.task p).status ≠ (m.task p).status →
      ∃ q ∈ m.taskSequences, m.findAsynchTask q attrName = some p
        ∧ p ∈ (m.sequence q).tasks ∧ (m.task p).isAsynch = true
        ∧ (m.task p).statusAttrName = attrName
        ∧ ((m.setAsynchTaskStatus attrName status info).2.task p).status = status
  received : ∀ q ∈ m.taskSequences, ∀ p, m.findAsynchTask q attrName = some p →
    (m.task p).status = .idle ∨ (m.task p).status = .running →
      ((m.setAsynchTaskStatus attrName status info).2.task p).status = status
  taskQueue : (m.setAsynchTaskStatus attrName status info).2.taskQueue = m.taskQueue
  taskSequences : (m.setAsynchTaskStatus attrName status info).2.taskSequences = m.taskSequences

/-- **What an event writes**, in every state. -/
theorem changesFirstWatching : ChangesFirstWatching attrName status info m where
  changed p hne := by
    rw [TaskManager.status_setAsynchTaskStatus'] at hne ⊢
    split at hne
    · rename_i hfound
      obtain ⟨q, hq, hfind⟩ := hfound
      have hmatch := List.find?_some hfind
      simp only [Heap.matchAsynchTask, Bool.and_eq_true, beq_iff_eq] at hmatch
      exact ⟨q, hq, hfind, List.mem_of_find?_eq_some hfind, hmatch.1.1, hmatch.1.2,
        if_pos ⟨q, hq, hfind⟩⟩
    · exact absurd rfl hne
  received q hq p hfind _ := by
    rw [TaskManager.status_setAsynchTaskStatus', if_pos ⟨q, hq, hfind⟩]
  taskQueue := rfl
  taskSequences := rfl

end

/-- A task still queued is touched, and so is one that was completed long ago. -/
theorem not_changesOnlyRunning_slew :
    ¬ ChangesOnlyRunning "slewStatus" .running ""
        (run (System.step SetImpl.linear) (System.create Heap.oneAsynchTask "dish")
          [.request (.addTaskSequence (fun _ => true) (some 0) true)]).manager
      ∧ ¬ ChangesOnlyRunning "slewStatus" .running ""
        (run (System.step SetImpl.linear) (System.create Heap.oneAsynchTask "dish")
          [.request (.addTaskSequence (fun _ => true) (some 0) true),
            .worker (.popTask Clock.origin), .worker (.runTask .done), .worker .reportTask,
            .request (.setAsynchTaskStatus "slewStatus" .completed "")]).manager := by
  refine ⟨fun honly => ?_, fun honly => ?_⟩
  · exact absurd (honly 0 (by decide +kernel)).2.2 (by decide +kernel)
  · exact absurd (honly 0 (by decide +kernel)).2.2 (by decide +kernel)

section

variable (now : Clock) (historyTimeThr : Int) (useUTC : Bool) (m : TaskManager)

def TaskManager.Alive (q : TaskSequencePtr) : Prop :=
  ∃ p ∈ (m.sequence q).tasks, p ∈ m.taskQueue ∨ (m.task p).status = .running

/-- `ClearSequenceTasks`, told to keep what is running, keeps every sequence that is alive. -/
def KeepsAlive : Prop :=
  ∀ q ∈ m.taskSequences, m.Alive q →
    q ∈ (m.clearSequenceTasks now historyTimeThr true useUTC).2.taskSequences

end

def slewAndTrack : Heap :=
  Heap.blank.buildSequence 0 (TaskSequence.create Clock.origin "s-1" "observe" false)
    [(0, (Task.create Clock.origin "t-1" "Slew" 0 false).setAsynchTask "slewStatus"),
      (1, Task.create Clock.origin "t-2" "Track" 0 false)]

end DshLmc
