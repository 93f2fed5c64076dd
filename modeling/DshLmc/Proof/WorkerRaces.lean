import DshLmc.Proof.Steps

/-!
# The worker against the other threads

Between `PopTask` and the report of `ExecuteTask` the worker holds a copy of a task that is out of
the queue but whose status still says `IDLE`. Two threads can hit that window. A completion event
that arrives before the report is overwritten by `RUNNING`. A revocation that arrives in the window
cancels a task that is run all the same.

Outside the window neither happens. A task out of the queue and out of the worker's hands
(`OutOfReach`) stays so, and then no step of the worker writes its status.
-/

namespace DshLmc

/-- The task whose report, if the handler ends well, is still to come. -/
def Worker.toReport : Worker → Option Task
  | .popped task => some task
  | .handled task .done => some task
  | _ => none

/-- `hands` selects what the worker holds, and the worker only gets it by popping. -/
def PoppedOnly (hands : Worker → Option Task) : Prop :=
  ∀ s s' t, WorkerMove s s' → hands s'.worker = some t →
    hands s.worker = some t ∨ ∃ p ∈ s.manager.taskQueue, t.fixed = (s.manager.task p).fixed

theorem poppedOnly_held : PoppedOnly Worker.held := fun _ _ _ h ht =>
  (h.held_cases ht).imp_right fun ⟨_, p, hp, heq, _⟩ => ⟨p, hp, heq⟩

theorem poppedOnly_toRun : PoppedOnly Worker.toRun := fun _ _ _ h ht => h.toRun_cases ht

theorem poppedOnly_toReport : PoppedOnly Worker.toReport := by
  intro s s' t h ht
  have hpopped : s'.worker.toRun = some t → _ := h.toRun_cases
  cases h with
  | stay hworker =>
      obtain rfl | ⟨-, rfl⟩ := hworker
      · exact Or.inl ht
      · simp [Worker.toReport] at ht
  | mark hready hworker => rcases hworker with rfl | rfl <;> simp [Worker.toReport] at ht
  | pop hready hm hqueue hrun hfront =>
      exact (hpopped ht).imp_left fun habs => by simp [hready, Worker.toRun] at habs
  | @ran task outcome hready =>
      left
      cases outcome with
      | done => simpa [Worker.toReport, hready] using ht
      | devFailed reason => simp [Worker.toReport] at ht
      | exception => simp [Worker.toReport] at ht
  | report => simp [Worker.toReport] at ht

structure OutOfReach (hands : Worker → Option Task) (h : Heap) (p : TaskPtr) (s : System) :
    Prop where
  notQueued : p ∉ s.manager.taskQueue
  notHeld : ∀ t, hands s.worker = some t → t.id ≠ (h.task p).id

namespace OutOfReach

variable {S : SetImpl TaskPtr} {hands : Worker → Option Task} {h : Heap} {p : TaskPtr} {s : System}
  {added : List TaskSequencePtr} {q : TaskSequencePtr}

theorem step (hhands : PoppedOnly hands) (hb : h.WellBuilt) (hp : p ∈ (h.sequence q).tasks)
    (ht : Traced h added s) (ho : OutOfReach hands h p s) {e : Event}
    (hnew : ∀ q' ∈ s.adds e, p ∉ (h.sequence q').tasks) :
    OutOfReach hands h p (s.step S e) where
  notQueued hqueued := by
    obtain habs | ⟨q', hq', habs⟩ := System.mem_taskQueue_step hqueued
    · exact ho.notQueued habs
    · rw [ht.objects.tasks] at habs
      exact hnew q' hq' habs
  notHeld t hheld := by
    cases e with
    | request r => exact ho.notHeld t hheld
    | worker w =>
        obtain hold | ⟨p', hp', hcopy⟩ := hhands s _ t (s.workerMove w) hheld
        · exact ho.notHeld t hold
        · -- What has just been popped was queued, so it is another task.
          intro heq
          obtain ⟨q', -, hmem⟩ := ht.queued p' hp'
          rw [Task.id_of_fixed (hcopy.trans (ht.objects.task p'))] at heq
          exact ho.notQueued (hb.id_inj q' q p' p hmem hp heq ▸ hp')

/-- **Out of reach for good**, as no sequence is added twice. -/
theorem run (hhands : PoppedOnly hands) (hb : h.WellBuilt) (hp : p ∈ (h.sequence q).tasks)
    (hq : q ∈ added) {events : List Event} (ht : Traced h added s)
    (honce : (added ++ s.added S events).Nodup) (ho : OutOfReach hands h p s) :
    OutOfReach hands h p (DshLmc.run (System.step S) s events) := by
  induction events generalizing s added with
  | nil => exact ho
  | cons e rest ih =>
      rw [System.added, ← List.append_assoc] at honce
      refine ih (List.mem_append_left _ hq) (ht.step e) honce (ho.step hhands hb hp ht ?_)
      intro q' hq' hp'
      have hnodup := (List.nodup_append.mp honce).1
      exact (List.disjoint_of_nodup_append hnodup) hq (hb.sequence_eq hp hp' ▸ hq')

theorem status_workerStep (hb : h.WellBuilt) (hp : p ∈ (h.sequence q).tasks)
    (hs : SameObjects h s.manager.toHeap) {w : WorkerStep}
    (hreport : ∀ t outcome, s.worker = .handled t outcome → t.id ≠ (h.task p).id) :
    ((s.workerStep w).manager.task p).status = (s.manager.task p).status
      ∨ ((s.workerStep w).manager.task p).status = .expired := by
  have hmove := s.workerMove w
  generalize s.workerStep w = s' at hmove ⊢
  cases hmove with
  | stay => exact Or.inl rfl
  | mark hready hworker hm => exact hm.status p
  | pop hready hm => exact hm.status p
  | ran => exact Or.inl rfl
  | @report t outcome hhandled =>
      left
      have hnot : ¬ ∃ q' ∈ s.manager.taskSequences,
          s.manager.findTask q' t.id t.cmdName = some p := by
        rintro ⟨q', -, hfind⟩
        rw [hs.findTask] at hfind
        exact hreport t outcome hhandled ((hb.findTask_eq_some_iff hp).mp hfind).2.1.symm
      rw [TaskManager.status_reportTask, if_neg hnot]

theorem toReport (ho : OutOfReach Worker.toRun h p s)
    (hdone : ∀ task, s.worker = .handled task .done → task.id ≠ (h.task p).id) :
    OutOfReach Worker.toReport h p s := by
  refine ⟨ho.notQueued, fun t ht => ?_⟩
  cases hworker : s.worker with
  | ready => simp [hworker, Worker.toReport] at ht
  | sleeping => simp [hworker, Worker.toReport] at ht
  | popped task =>
      refine ho.notHeld t ?_
      simpa [hworker, Worker.toReport, Worker.toRun] using ht
  | handled task outcome =>
      cases outcome with
      | done =>
          obtain rfl : task = t := by simpa [hworker, Worker.toReport] using ht
          exact hdone task hworker
      | devFailed reason => simp [hworker, Worker.toReport] at ht
      | exception => simp [hworker, Worker.toReport] at ht

/-- A report still to come says `FAILED`, so the worker does not write `RUNNING`. -/
theorem running_of_running (hb : h.WellBuilt) (hp : p ∈ (h.sequence q).tasks)
    (hs : SameObjects h s.manager.toHeap) (ho : OutOfReach Worker.toReport h p s) {w : WorkerStep}
    (hafter : ((s.workerStep w).manager.task p).status = .running) :
    (s.manager.task p).status = .running := by
  by_cases hreport : ∃ t outcome, s.worker = .handled t outcome ∧ t.id = (h.task p).id
  · obtain ⟨t, outcome, hworker, hid⟩ := hreport
    cases w with
    | reportTask =>
        simp only [System.workerStep, hworker, TaskManager.status_reportTask] at hafter
        split at hafter
        · cases outcome with
          | done => exact absurd hid (ho.notHeld t (by simp [hworker, Worker.toReport]))
          | devFailed reason => simp [TaskManager.executedStatus] at hafter
          | exception => simp [TaskManager.executedStatus] at hafter
        · exact hafter
    | popTask now => simpa [System.workerStep, hworker] using hafter
    | awake timedOut => simpa [System.workerStep, hworker] using hafter
    | runTask outcome' => simpa [System.workerStep, hworker] using hafter
  · push Not at hreport
    obtain heq | heq := status_workerStep hb hp hs (w := w) hreport
    · rwa [heq] at hafter
    · rw [heq] at hafter
      cases hafter

end OutOfReach

section Completion

variable (S : SetImpl TaskPtr)

def Started (s₀ : System) (p : TaskPtr) (past : List Event) : Prop :=
  ∃ before outcome t, before ++ [.worker (.runTask outcome)] <+: past
    ∧ (run (System.step S) s₀ before).worker = .popped t ∧ t.id = (s₀.manager.task p).id

/-- **A completion report is not lost.** Once an event after the start of the handler has given a
task a terminal status, no step of the worker takes it back to `RUNNING`. -/
def CompletionKept (s₀ : System) (events : List Event) : Prop :=
  ∀ before attrName status info between w p,
    before ++ [.request (.setAsynchTaskStatus attrName status info)] ++ between ++ [.worker w]
        <+: events →
    status.Terminal → Started S s₀ p before →
    (∃ q ∈ (run (System.step S) s₀ before).manager.taskSequences,
      (run (System.step S) s₀ before).manager.findAsynchTask q attrName = some p) →
    let s := run (System.step S) s₀
      (before ++ [.request (.setAsynchTaskStatus attrName status info)] ++ between)
    ((s.workerStep w).manager.task p).status = .running → (s.manager.task p).status = .running

/-- No terminal status arrives for a task whose handler has returned and whose report is still to
come. -/
def NotBeforeReport (s : System) : Event → Prop
  | .request (.setAsynchTaskStatus attrName status _) =>
      status.Terminal → ∀ t, s.worker = .handled t .done →
        ∀ q ∈ s.manager.taskSequences, ∀ p, s.manager.findAsynchTask q attrName = some p →
          t.id ≠ (s.manager.task p).id
  | _ => True

variable {S} {h : Heap} {devName : String} {events : List Event}

theorem outOfReach_of_started (hb : h.WellBuilt) {q : TaskSequencePtr} {p : TaskPtr}
    (hp : p ∈ (h.sequence q).tasks) {past : List Event}
    (honce : ((System.create h devName).added S past).Nodup)
    (hstarted : Started S (System.create h devName) p past) :
    OutOfReach Worker.toRun h p (run (System.step S) (System.create h devName) past)
      ∧ q ∈ (System.create h devName).added S past := by
  obtain ⟨before, outcome, t, ⟨rest, rfl⟩, hpopped, hid⟩ := hstarted
  have honce' := honce
  rw [System.added_append, System.added_append_singleton] at honce'
  have hledger : Ledger h ((System.create h devName).added S before)
      (run (System.step S) (System.create h devName) before) :=
    ledger_run before devName hb
      ((List.nodup_append.mp (List.nodup_append.mp honce').1).1)
  have hheld : (run (System.step S) (System.create h devName) before).worker.held = some t := by
    rw [hpopped]
    rfl
  obtain ⟨p', hcopy, q', hq', hp'⟩ := hledger.held t hheld
  have hpp : p' = p := hb.id_inj q' q p' p hp' hp ((Task.id_of_fixed hcopy).symm.trans hid)
  subst hpp
  have hqq : q' = q := hb.sequence_eq hp' hp
  subst hqq
  -- The step that runs the handler leaves the queue alone and empties these hands.
  have hafter : OutOfReach Worker.toRun h p' (run (System.step S) (System.create h devName)
      (before ++ [.worker (.runTask outcome)])) := by
    simp only [run_append, run_cons, run_nil, System.step, System.workerStep, hpopped]
    exact ⟨fun hqueued => hledger.taken t hheld p' hqueued (Task.id_of_fixed hcopy).symm,
      fun t' ht' => by simp [Worker.toRun] at ht'⟩
  have htraced := traced_run (S := S) (h := h) (before ++ [.worker (.runTask outcome)]) devName
  have hmem : q' ∈ (System.create h devName).added S (before ++ [.worker (.runTask outcome)]) := by
    rw [System.added_append_singleton]
    exact List.mem_append_left _ hq'
  rw [System.added_append] at honce ⊢
  rw [run_append]
  exact ⟨hafter.run poppedOnly_toRun hb hp hmem htraced honce, List.mem_append_left _ hmem⟩

/-- **Completion reports are kept** in every run in which no terminal status arrives between a
handler and its report. -/
theorem completionKept_of_notBeforeReport (hb : h.WellBuilt)
    (honce : ((System.create h devName).added S events).Nodup)
    (hrun : Along (System.step S) NotBeforeReport (System.create h devName) events) :
    CompletionKept S (System.create h devName) events := by
  intro before attrName status info between w p hpre hterminal hstarted ⟨q, hq, hfind⟩ s hafter
  set s₀ := System.create h devName with hs₀
  set e : Event := .request (.setAsynchTaskStatus attrName status info) with he
  obtain ⟨rest, rfl⟩ := hpre
  set s₁ := run (System.step S) s₀ before with hs₁
  have htraced : Traced h (s₀.added S before) s₁ := traced_run before devName
  have hp : p ∈ (h.sequence q).tasks := by
    have hmem := List.mem_of_find?_eq_some hfind
    rwa [htraced.objects.tasks] at hmem
  have honce₁ : (s₀.added S (before ++ [e] ++ between)).Nodup :=
    (System.added_sublist_of_prefix s₀ ⟨[.worker w] ++ rest, by simp⟩).nodup honce
  have honce₀ : (s₀.added S before).Nodup :=
    (System.added_sublist_of_prefix s₀ ⟨[e] ++ between, by simp⟩).nodup honce₁
  obtain ⟨hreach, hadded⟩ := outOfReach_of_started hb hp honce₀ hstarted
  have hcond : NotBeforeReport s₁ e :=
    (along_append.mp (along_append.mp (along_append.mp (along_append.mp hrun).1).1).1).2.1
  have hreach' : OutOfReach Worker.toReport h p s₁ := by
    refine hreach.toReport fun task hworker => ?_
    rw [← htraced.objects.id]
    exact hcond hterminal task hworker q hq p hfind
  have hlater : OutOfReach Worker.toReport h p s := by
    have hs : s = run (System.step S) s₁ ([e] ++ between) := by
      simp only [s, hs₁, hs₀, he, run_append]
    rw [List.append_assoc, System.added_append] at honce₁
    rw [hs]
    exact hreach'.run poppedOnly_toReport hb hp hadded htraced honce₁
  have hobjects : SameObjects h s.manager.toHeap :=
    (traced_run (S := S) (h := h) (before ++ [e] ++ between) devName).objects
  exact hlater.running_of_running hb hp hobjects hafter

def addPopRun : List Event :=
  [.request (.addTaskSequence (fun _ => true) (some 0) true), .worker (.popTask Clock.origin),
    .worker (.runTask .done)]

/-- A task that reports its completion after the worker has reported the start. -/
theorem completionKept_of_notBeforeReport_slew :
    CompletionKept SetImpl.linear (System.create Heap.oneAsynchTask "dish")
      (addPopRun ++ [.worker .reportTask,
        .request (.setAsynchTaskStatus "slewStatus" .completed ""),
        .worker (.popTask Clock.origin)]) := by
  refine completionKept_of_notBeforeReport Heap.wellBuilt_oneAsynchTask (by decide) ?_
  refine ⟨trivial, trivial, trivial, trivial, fun _ t ht => ?_, trivial, trivial⟩
  have hreported : (run (System.step SetImpl.linear) (System.create Heap.oneAsynchTask "dish")
      (addPopRun ++ [.worker .reportTask])).worker.toReport.isSome = false := by decide +kernel
  exact absurd (congrArg (·.toReport.isSome) ht) (ne_true_of_eq_false hreported)

theorem started_slew (h : Heap)
    (hpopped : (run (System.step S) (System.create h "dish") (addPopRun.take 2)).worker.toRun.map
      Task.id = some (h.task 0).id) : Started S (System.create h "dish") 0 addPopRun := by
  obtain ⟨t, ht, hid⟩ := Option.map_eq_some_iff.mp hpopped
  refine ⟨addPopRun.take 2, .done, t, List.prefix_rfl, ?_, hid⟩
  cases hworker : (run (System.step S) (System.create h "dish") (addPopRun.take 2)).worker <;>
    simp_all [Worker.toRun]

/-- **The window.** The completion arrives before the worker has reported the start. -/
theorem not_completionKept_slew :
    Heap.oneAsynchTask.WellBuilt
      ∧ ¬ CompletionKept SetImpl.linear (System.create Heap.oneAsynchTask "dish")
        (addPopRun ++ [.request (.setAsynchTaskStatus "slewStatus" .completed ""),
          .worker .reportTask]) := by
  refine ⟨Heap.wellBuilt_oneAsynchTask, fun hkept => ?_⟩
  have hrunning := hkept addPopRun "slewStatus" .completed "" [] .reportTask 0 (by simp)
    (Or.inl rfl) (started_slew Heap.oneAsynchTask (by decide +kernel))
    ⟨0, by decide +kernel, by decide +kernel⟩ (by decide +kernel)
  exact absurd hrunning (by decide +kernel)

end Completion

/-! ### Revocations -/

section Revocation

variable (S : SetImpl TaskPtr)

inductive Request.Revokes : Request → Prop
  | sequence (name : String) : Request.Revokes (.revokeTaskSequence name)
  | task (name : String) : Request.Revokes (.revokeTask name)

inductive Event.RevokesOrWorks : Event → Prop
  | revoke {r : Request} (hr : r.Revokes) : Event.RevokesOrWorks (.request r)
  | work (w : WorkerStep) : Event.RevokesOrWorks (.worker w)

/-- **A revoked task stays revoked.** After a revocation that took a task from `IDLE` to
`CANCELED`, revocations and steps of the worker never start it, and its status never says that it
was started. -/
def RevokedStays (s₀ : System) (events : List Event) : Prop :=
  ∀ before r after p, before ++ [.request r] ++ after <+: events →
    r.Revokes → (∀ e ∈ after, e.RevokesOrWorks) →
    let s := run (System.step S) s₀ before
    let s' := run (System.step S) s₀ (before ++ [.request r])
    (s.manager.task p).status = .idle → (s'.manager.task p).status = .canceled →
    let later := run (System.step S) s₀ (before ++ [.request r] ++ after)
    (∀ t, later.worker = .popped t → t.id ≠ (s.manager.task p).id)
      ∧ (later.manager.task p).status ≠ .running ∧ (later.manager.task p).status ≠ .completed
      ∧ (later.manager.task p).status ≠ .failed

/-- The tasks a revocation cancels: the `IDLE` ones of the name, or of the sequences of the name. -/
def TaskManager.Revoking (m : TaskManager) : Request → TaskPtr → Prop
  | .revokeTaskSequence name, p =>
      (∃ q ∈ m.taskSequences, (m.sequence q).seqName = name ∧ p ∈ (m.sequence q).tasks)
        ∧ (m.task p).status = .idle
  | .revokeTask name, p =>
      (∃ q ∈ m.taskSequences, p ∈ (m.sequence q).tasks)
        ∧ (m.task p).cmdName = name ∧ (m.task p).status = .idle
  | _, _ => False

/-- The worker does not hold a task that the revocation is about to cancel. -/
def NotInHands (s : System) : Event → Prop
  | .request r =>
      ∀ p, s.manager.Revoking r p → ∀ t, s.worker.held = some t → t.id ≠ (s.manager.task p).id
  | .worker _ => True

variable {S} {h : Heap} {devName : String} {events : List Event} {s : System} {p : TaskPtr}
  {r : Request}

theorem revoke_effect (hb : h.WellBuilt) (hs : SameObjects h s.manager.toHeap) (hr : r.Revokes)
    (hidle : (s.manager.task p).status = .idle)
    (hcanceled : ((s.request S r).manager.task p).status = .canceled) :
    s.manager.Revoking r p ∧ p ∉ (s.request S r).manager.taskQueue
      ∧ ∃ q ∈ s.manager.taskSequences, p ∈ (h.sequence q).tasks := by
  cases hr with
  | sequence name =>
      simp only [System.manager_request, TaskManager.call,
        TaskManager.status_revokeTaskSequence] at hcanceled
      split at hcanceled
      · rename_i hsel
        obtain ⟨⟨q, hq, hname, hp⟩, -⟩ := hsel
        have hp' : p ∈ (h.sequence q).tasks := by rwa [hs.tasks] at hp
        refine ⟨⟨⟨q, hq, hname, hp⟩, hidle⟩, ?_, q, hq, hp'⟩
        obtain ⟨i, hi⟩ := List.mem_iff_getElem?.mp hp'
        obtain ⟨hin, -, hseqName, -⟩ := hb.place q i p hi
        have hmatch : matchTaskBySequenceName name (s.manager.task p) = true := by
          rw [matchTaskBySequenceName, hs.isInSequence, hs.sequenceName, hin, hseqName,
            ← hs.seqName, hname]
          simp
        simp [TaskManager.call, hmatch]
      · simp [hidle] at hcanceled
  | task name =>
      simp only [System.manager_request, TaskManager.call,
        TaskManager.status_revokeTask] at hcanceled
      split at hcanceled
      · rename_i hsel
        obtain ⟨⟨q, hq, hp⟩, hname, -⟩ := hsel
        refine ⟨⟨⟨q, hq, hp⟩, hname, hidle⟩, ?_, q, hq, by rwa [hs.tasks] at hp⟩
        simp [TaskManager.call, matchTaskByName, hname]
      · simp [hidle] at hcanceled

theorem status_revoke_of_ne_idle (hr : r.Revokes) (hne : (s.manager.task p).status ≠ .idle) :
    ((s.request S r).manager.task p).status = (s.manager.task p).status := by
  cases hr with
  | sequence name => simp [TaskManager.call, TaskManager.status_revokeTaskSequence, hne]
  | task name => simp [TaskManager.call, TaskManager.status_revokeTask, hne]

/-- Cancelled or timed out, and beyond the worker's reach. -/
structure Revoked (h : Heap) (added : List TaskSequencePtr) (p : TaskPtr) (s : System) :
    Prop where
  traced : Traced h added s
  reach : OutOfReach Worker.held h p s
  status : (s.manager.task p).status = .canceled ∨ (s.manager.task p).status = .expired

theorem Revoked.step {added : List TaskSequencePtr} {q : TaskSequencePtr} (hb : h.WellBuilt)
    (hp : p ∈ (h.sequence q).tasks) (hr : Revoked h added p s) {e : Event}
    (he : e.RevokesOrWorks) : Revoked h added p (s.step S e) := by
  have hadds : s.adds e = [] := by
    cases he with
    | revoke hr => cases hr <;> rfl
    | work w => rfl
  have htraced := hr.traced.step (S := S) e
  rw [hadds, List.append_nil] at htraced
  refine ⟨htraced, hr.reach.step poppedOnly_held hb hp hr.traced (by simp [hadds]), ?_⟩
  cases he with
  | revoke hrevokes =>
      have hne : (s.manager.task p).status ≠ .idle := by
        rcases hr.status with heq | heq <;> simp [heq]
      rw [System.step, status_revoke_of_ne_idle hrevokes hne]
      exact hr.status
  | work w =>
      have hreport : ∀ t outcome, s.worker = .handled t outcome → t.id ≠ (h.task p).id :=
        fun t outcome hworker => hr.reach.notHeld t (by simp [hworker, Worker.held])
      obtain heq | heq := OutOfReach.status_workerStep hb hp hr.traced.objects (w := w) hreport
      · rw [System.step, heq]
        exact hr.status
      · exact Or.inr heq

/-- **Revoked tasks stay revoked** in every run in which no task is revoked while the worker holds
it. -/
theorem revokedStays_of_notInHands (hb : h.WellBuilt)
    (hrun : Along (System.step S) NotInHands (System.create h devName) events) :
    RevokedStays S (System.create h devName) events := by
  intro before r after p hpre hrevokes hafter s s' hidle hcanceled later
  obtain ⟨rest, rfl⟩ := hpre
  have htraced : Traced h _ s := traced_run before devName
  have hs' : s' = s.request S r := by simp [s, s', System.step]
  rw [hs'] at hcanceled
  obtain ⟨hrevoking, hnotQueued, q, hq, hp⟩ := revoke_effect hb htraced.objects hrevokes hidle
    hcanceled
  have hcond : NotInHands s (.request r) :=
    (along_append.mp (along_append.mp (along_append.mp hrun).1).1).2.1
  have hstart : Revoked h ((System.create h devName).added S (before ++ [.request r])) p s' := by
    refine ⟨traced_run _ devName, ?_, Or.inl (hs' ▸ hcanceled)⟩
    rw [hs']
    refine ⟨hnotQueued, fun t ht => ?_⟩
    rw [← htraced.objects.id]
    exact hcond p hrevoking t ht
  have hlater : Revoked h ((System.create h devName).added S (before ++ [.request r])) p later := by
    have heq : later = run (System.step S) s' after := by simp [later, s']
    rw [heq]
    exact run_invariant (C := fun _ e => e.RevokesOrWorks) (fun s e hr he => hr.step hb hp he)
      hstart (along_of_forall_mem hafter)
  refine ⟨fun t ht => ?_, ?_⟩
  · rw [htraced.objects.id]
    exact hlater.reach.notHeld t (by simp [ht, Worker.held])
  · rcases hlater.status with heq | heq <;> simp [heq]

/-- A task revoked while it is still queued. -/
theorem revokedStays_of_notInHands_slew :
    RevokedStays SetImpl.linear (System.create Heap.oneAsynchTask "dish")
      [.request (.addTaskSequence (fun _ => true) (some 0) true), .request (.revokeTask "Slew"),
        .worker (.popTask Clock.origin)] := by
  refine revokedStays_of_notInHands Heap.wellBuilt_oneAsynchTask ?_
  refine ⟨fun _ hrevoking => hrevoking.elim, fun _ _ t ht => ?_, trivial, trivial⟩
  cases ht

/-- **The window.** A task revoked between its pop and its start is run, and its status says so. -/
theorem not_revokedStays_slew :
    Heap.oneAsynchTask.WellBuilt
      ∧ ¬ RevokedStays SetImpl.linear (System.create Heap.oneAsynchTask "dish")
        (addPopRun.take 2 ++ [.request (.revokeTask "Slew"), .worker (.runTask .done),
          .worker .reportTask]) := by
  refine ⟨Heap.wellBuilt_oneAsynchTask, fun hstays => ?_⟩
  have hlater := hstays (addPopRun.take 2) (.revokeTask "Slew")
    [.worker (.runTask .done), .worker .reportTask] 0 (by simp) (.task "Slew")
    (by simp [Event.RevokesOrWorks.work]) (by decide +kernel) (by decide +kernel)
  exact absurd hlater.2.1 (by decide +kernel)

end Revocation

end DshLmc
