import DshLmc.Proof.Dependencies
import DshLmc.Proof.WorkerRaces

/-!
# What PopTask returns

`PopTask` promises the first task of the queue that may start: it is `IDLE`, its activation time has
come, its expiration time has not, and every task that its row of the dependency matrix lists is
completed. The dependencies are looked up in the collection, by the identifier and the name of the
sequence. A task with dependencies whose sequence has been cleared is therefore passed over, even
when the tasks it waits for were completed. `MayRun` has that condition, `Ready` has not.
-/

namespace DshLmc

/-- `SetTaskDependency` accepted a matrix for the sequence, and what it left in the sequence and in
its tasks has not been touched since. -/
def Heap.Accepted (h : Heap) (q : TaskSequencePtr) : Prop :=
  ∃ (now : Clock) (h₀ h₁ : Heap) (depIndexes : List (List Nat)),
    h₀.setTaskDependency now q depIndexes = .ok (0, h₁)
      ∧ (h.sequence q).tasks = (h₀.sequence q).tasks
      ∧ (h.sequence q).dependencyMatrix = (h₁.sequence q).dependencyMatrix
      ∧ ∀ p ∈ (h.sequence q).tasks,
        (h.task p).depTaskSeqIndexes = (h₁.task p).depTaskSeqIndexes
          ∧ (h.task p).dependOnSequenceTasks = (h₁.task p).dependOnSequenceTasks

theorem Heap.Accepted.row {h : Heap} {q : TaskSequencePtr} (ha : h.Accepted q)
    (hb : h.WellBuilt) {i : Nat} {p : TaskPtr} (hi : (h.sequence q).tasks[i]? = some p) :
    ∃ row, (h.sequence q).dependencyMatrix[i]? = some row
      ∧ (h.task p).depTaskSeqIndexes = row.map Int.ofNat
      ∧ (row ≠ [] → (h.task p).dependOnSequenceTasks = true) := by
  obtain ⟨now, h₀, h₁, depIndexes, hset, htasks, hmatrix, hsame⟩ := ha
  obtain ⟨hlength, hsequence, -, hrows⟩ :=
    Heap.setTaskDependency_spec (htasks ▸ hb.nodup q) hset
  have hi₀ : (h₀.sequence q).tasks[i]? = some p := htasks ▸ hi
  obtain ⟨row, hrow⟩ : ∃ row, depIndexes[i]? = some row :=
    ⟨_, List.getElem?_eq_getElem (hlength ▸ (List.getElem?_eq_some_iff.mp hi₀).1)⟩
  obtain ⟨htimeless, -⟩ := hrows i p row hi₀ hrow
  obtain ⟨hindexes, hdepends⟩ := hsame p (List.mem_of_getElem? hi)
  refine ⟨row, ?_, ?_, fun hne => ?_⟩
  · rw [hmatrix, hsequence, Function.update_self]
    exact hrow
  · rw [hindexes]
    have := congrArg Task.depTaskSeqIndexes htimeless
    exact this
  · rw [hdepends]
    have := congrArg Task.dependOnSequenceTasks htimeless
    simpa [Task.timeless, hne] using this

/-- The four conditions on a task to start. -/
structure Ready (now : Clock) (m : TaskManager) (p : TaskPtr) : Prop where
  idle : (m.task p).status = .idle
  activated : (m.task p).isActivationReached now = true
  notExpired : (m.task p).isExpirationReached now = false
  dependencies : ∀ q (i : Nat) row, (m.sequence q).tasks[i]? = some p →
    (m.sequence q).dependencyMatrix[i]? = some row →
      ∀ d ∈ row, ∃ p', (m.sequence q).tasks[d]? = some p' ∧ (m.task p').status = .completed

/-- A task that depends on others also needs its sequence in the collection. -/
structure MayRun (now : Clock) (m : TaskManager) (p : TaskPtr) : Prop
    extends Ready now m p where
  tracked : ∀ q (i : Nat) row, (m.sequence q).tasks[i]? = some p →
    (m.sequence q).dependencyMatrix[i]? = some row → row ≠ [] → q ∈ m.taskSequences

section

variable {h : Heap} {m : TaskManager} {p : TaskPtr} {q : TaskSequencePtr} {i : Nat} {now : Clock}

theorem findTaskSequence_eq (hb : h.WellBuilt) (hs : SameObjects h m.toHeap)
    (hnonempty : ∀ q ∈ m.taskSequences, (h.sequence q).tasks ≠ [])
    (hi : (h.sequence q).tasks[i]? = some p) :
    m.findTaskSequence (m.task p).sequenceId (m.task p).sequenceName
      = if q ∈ m.taskSequences then some q else none := by
  obtain ⟨-, hid, hname, -⟩ := hb.place q i p hi
  have hmatch : ∀ q' ∈ m.taskSequences, matchTaskSequenceByIdAndName (m.task p).sequenceId
      (m.task p).sequenceName (m.sequence q') = true ↔ q' = q := by
    intro q' hq'
    simp only [matchTaskSequenceByIdAndName, Bool.and_eq_true, beq_iff_eq, hs.seqName, hs.seqId,
      hs.sequenceId, hs.sequenceName, hid, hname]
    constructor
    · rintro ⟨-, heq⟩
      exact hb.seqId_inj q' q (hnonempty q' hq') (List.ne_nil_of_mem (List.mem_of_getElem? hi)) heq
    · rintro rfl
      exact ⟨rfl, rfl⟩
  unfold TaskManager.findTaskSequence
  split
  · rename_i hq
    cases hfind : m.taskSequences.find? fun q' => matchTaskSequenceByIdAndName
        (m.task p).sequenceId (m.task p).sequenceName (m.sequence q') with
    | none => exact absurd ((hmatch q hq).mpr rfl) (List.find?_eq_none.mp hfind q hq)
    | some q' =>
        have hcond := List.find?_some (p := fun q' => matchTaskSequenceByIdAndName
          (m.task p).sequenceId (m.task p).sequenceName (m.sequence q')) hfind
        rw [(hmatch q' (List.mem_of_find?_eq_some hfind)).mp hcond]
  · rename_i hq
    refine List.find?_eq_none.mpr fun q' hq' habs => hq ?_
    exact (hmatch q' hq').mp habs ▸ hq'

theorem isSequenceTaskRunnable_iff (hb : h.WellBuilt) (ha : h.Accepted q)
    (hs : SameObjects h m.toHeap) (hnonempty : ∀ q ∈ m.taskSequences, (h.sequence q).tasks ≠ [])
    (hi : (h.sequence q).tasks[i]? = some p) {row : List Nat}
    (hrow : (h.sequence q).dependencyMatrix[i]? = some row) :
    m.isSequenceTaskRunnable p = true ↔ (row ≠ [] → q ∈ m.taskSequences)
      ∧ ∀ d ∈ row, ∃ p', (m.sequence q).tasks[d]? = some p' ∧ (m.task p').status = .completed := by
  obtain ⟨row', hrow', hindexes, hdepends⟩ := ha.row hb hi
  obtain rfl := Option.some.inj (hrow.symm.trans hrow')
  unfold TaskManager.isSequenceTaskRunnable
  simp only [findTaskSequence_eq hb hs hnonempty hi, hs.isInSequence, hs.dependOnSequenceTasks,
    hs.depTaskSeqIndexes, (hb.place q i p hi).1, hindexes]
  by_cases hempty : row = []
  · simp [hempty]
  · have hentry : ∀ d : Nat, m.isDependencyCompleted q (Int.ofNat d) = true ↔
        ∃ p', (m.sequence q).tasks[d]? = some p' ∧ (m.task p').status = .completed := by
      intro d
      simp only [TaskManager.isDependencyCompleted, Int.ofNat_eq_natCast, Int.toNat_natCast,
        Int.natCast_nonneg, not_lt_of_ge, if_false]
      cases (m.sequence q).tasks[d]? <;> simp
    by_cases hq : q ∈ m.taskSequences
    · simp [hempty, hdepends hempty, hq, ← hentry]
    · simp [hempty, hdepends hempty, hq]

/-- **The test of the loop** decides `MayRun`. -/
theorem isRunnable_iff (hb : h.WellBuilt) (ha : h.Accepted q) (hs : SameObjects h m.toHeap)
    (hnonempty : ∀ q ∈ m.taskSequences, (h.sequence q).tasks ≠ [])
    (hi : (h.sequence q).tasks[i]? = some p) :
    m.isRunnable now p = true ↔ MayRun now m p := by
  obtain ⟨row, hrow, -, -⟩ := ha.row hb hi
  have hrow' : (m.sequence q).dependencyMatrix[i]? = some row := by rwa [hs.dependencyMatrix]
  have hi' : (m.sequence q).tasks[i]? = some p := by rwa [hs.tasks]
  -- The sequence, the index and the row of the task are determined.
  have hunique : ∀ {q' i' row'}, (m.sequence q').tasks[i']? = some p →
      (m.sequence q').dependencyMatrix[i']? = some row' → q' = q ∧ i' = i ∧ row' = row := by
    intro q' i' row' hi₂ hrow₂
    rw [hs.tasks] at hi₂
    obtain ⟨rfl, rfl⟩ := hb.place_eq hi₂ hi
    rw [hrow'] at hrow₂
    exact ⟨rfl, rfl, (Option.some.inj hrow₂).symm⟩
  have hsequence := isSequenceTaskRunnable_iff hb ha hs hnonempty hi hrow
  rw [TaskManager.isRunnable, Task.isRunnable, Bool.and_eq_true, Bool.and_eq_true,
    Bool.and_eq_true, beq_iff_eq, Bool.not_eq_true', hsequence]
  constructor
  · rintro ⟨⟨⟨hidle, hactive⟩, hexpired⟩, htracked, hcompleted⟩
    refine ⟨⟨hidle, hactive, hexpired, fun q' i' row' hi₂ hrow₂ => ?_⟩,
      fun q' i' row' hi₂ hrow₂ => ?_⟩
    · obtain ⟨rfl, rfl, rfl⟩ := hunique hi₂ hrow₂
      exact hcompleted
    · obtain ⟨rfl, rfl, rfl⟩ := hunique hi₂ hrow₂
      exact htracked
  · intro hmay
    exact ⟨⟨⟨hmay.idle, hmay.activated⟩, hmay.notExpired⟩, hmay.tracked q i row hi' hrow',
      hmay.dependencies q i row hi' hrow'⟩

end

/-! ### Over a run -/

/-- The task that `PopTask` returns if the worker calls it now. -/
def System.pops (now : Clock) (s : System) : Option Task :=
  match s.worker, (s.manager.popTask now s.signals).1 with
  | .ready, .popped task => some task
  | _, _ => none

variable (S : SetImpl TaskPtr)

/-- `PopTask` returns the first task of the queue that meets the conditions, and takes it and the
tasks already `EXPIRED` out of the queue. -/
def PopsFirst (ready : Clock → TaskManager → TaskPtr → Prop) (s₀ : System)
    (events : List Event) : Prop :=
  ∀ before now t, before ++ [.worker (.popTask now)] <+: events →
    let s := run (System.step S) s₀ before
    s.pops now = some t →
    let m := (run (System.step S) s₀ (before ++ [.worker (.popTask now)])).manager
    ∃ p front back,
      s.manager.taskQueue.filter (fun p => (s.manager.task p).status != .expired)
          = front ++ p :: back
        ∧ m.taskQueue = front ++ back ∧ t = m.task p
        ∧ ready now m p ∧ ∀ p' ∈ front, ¬ ready now m p'

/-- `PopTask` does not return the same task twice. -/
def PopsOnce (s₀ : System) (events : List Event) : Prop :=
  ∀ before now between now' t t',
    before ++ [.worker (.popTask now)] ++ between ++ [.worker (.popTask now')] <+: events →
    (run (System.step S) s₀ before).pops now = some t →
    (run (System.step S) s₀ (before ++ [.worker (.popTask now)] ++ between)).pops now' = some t' →
    t.id ≠ t'.id

variable {S} {h : Heap} {devName : String} {events : List Event} {s : System}

theorem System.pops_cases {now : Clock} {t : Task} (hpops : s.pops now = some t) :
    ∃ m p front back, (s.manager.removeInQueue (matchTaskByStatus .expired)).Expiring m
      ∧ m.taskQueue = front ++ p :: back ∧ m.isRunnable now p = true
      ∧ (∀ p' ∈ front, m.isRunnable now p' = false) ∧ t = m.task p
      ∧ (s.step S (.worker (.popTask now))).manager
        = { m with taskQueue := m.taskQueue.erase p } := by
  cases hworker : s.worker with
  | sleeping => simp [System.pops, hworker] at hpops
  | popped task => simp [System.pops, hworker] at hpops
  | handled task outcome => simp [System.pops, hworker] at hpops
  | ready =>
      rcases s.manager.popTask_cases now s.signals with
        ⟨outcome, signals, hout, heq⟩ | ⟨m, hm, ⟨outcome, signals, hout, heq⟩
          | ⟨p, front, back, signals, hqueue, hrun, hfront, heq⟩⟩
      · rcases hout with rfl | rfl <;> simp [System.pops, hworker, heq] at hpops
      · rcases hout with rfl | ⟨time, rfl⟩ <;> simp [System.pops, hworker, heq] at hpops
      · simp only [System.pops, hworker, heq, Option.some.injEq] at hpops
        refine ⟨m, p, front, back, hm, hm.taskQueue.trans hqueue, hrun, hfront, hpops.symm, ?_⟩
        simp [System.step, System.workerStep, hworker, heq]

/-- The first task that may run, in every run that adds each sequence at most once and with an
accepted matrix. -/
theorem popsFirst_mayRun (hb : h.WellBuilt)
    (honce : ((System.create h devName).added S events).Nodup)
    (haccepted : ∀ q ∈ (System.create h devName).added S events, h.Accepted q) :
    PopsFirst S MayRun (System.create h devName) events := by
  intro before now t hpre s hpops m
  have hadded := System.added_sublist_of_prefix (S := S) (System.create h devName)
    ((List.prefix_append before _).trans hpre)
  have hledger : Ledger h ((System.create h devName).added S before) s :=
    ledger_run before devName hb (hadded.nodup honce)
  obtain ⟨m', p, front, back, hm', hqueue, hrun, hfront, ht, hstep⟩ :=
    System.pops_cases (S := S) hpops
  have hm : m = { m' with taskQueue := m'.taskQueue.erase p } := by
    simpa only [m, run_append, run_cons, run_nil] using hstep
  have hnodup : m'.taskQueue.Nodup := by
    rw [hm'.taskQueue]
    exact hledger.nodup.filter _
  have herase : m'.taskQueue.erase p = front ++ back := by
    rw [hqueue] at hnodup ⊢
    have hp : p ∉ front := fun hp =>
      (List.disjoint_of_nodup_append hnodup) hp List.mem_cons_self
    rw [List.erase_append_right _ hp, List.erase_cons_head]
  have hmay : ∀ p' ∈ m'.taskQueue, m'.isRunnable now p' = true ↔ MayRun now m p' := by
    intro p' hp'
    rw [hm'.taskQueue] at hp'
    obtain ⟨q, hq, hmem⟩ := hledger.queued p' (List.mem_of_mem_filter hp')
    obtain ⟨i, hi⟩ := List.mem_iff_getElem?.mp hmem
    have hiff : m'.isRunnable now p' = true ↔ MayRun now m' p' :=
      isRunnable_iff hb (haccepted q (hadded.subset hq)) (hledger.objects.trans hm'.objects)
        (fun q hq => hledger.nonempty q (hledger.tracked q (hm'.taskSequences ▸ hq))) hi
    -- The conditions do not look at the queue.
    rw [hiff, hm]
    exact ⟨fun ⟨⟨h₁, h₂, h₃, h₄⟩, h₅⟩ => ⟨⟨h₁, h₂, h₃, h₄⟩, h₅⟩,
      fun ⟨⟨h₁, h₂, h₃, h₄⟩, h₅⟩ => ⟨⟨h₁, h₂, h₃, h₄⟩, h₅⟩⟩
  refine ⟨p, front, back, ?_, by rw [hm, herase], by rw [ht, hm], ?_, fun p' hp' => ?_⟩
  · rw [← hqueue, hm'.taskQueue]
    rfl
  · exact (hmay p (by simp [hqueue])).mp hrun
  · rw [← hmay p' (by simp [hqueue, hp']), hfront p' hp']
    exact Bool.false_ne_true

theorem poppedOnly_none : PoppedOnly fun _ => none := fun _ _ _ _ h => nomatch h

theorem popsOnce (hb : h.WellBuilt)
    (honce : ((System.create h devName).added S events).Nodup) :
    PopsOnce S (System.create h devName) events := by
  intro before now between now' t t' hpre hpops hpops'
  set s₀ := System.create h devName
  set pop : Event := .worker (.popTask now)
  have hnodup : (s₀.added S (before ++ [pop] ++ between)).Nodup :=
    (System.added_sublist_of_prefix s₀ ((List.prefix_append _ _).trans hpre)).nodup honce
  have hadded : (s₀.added S (before ++ [pop] ++ between))
      = s₀.added S (before ++ [pop]) ++ (run (System.step S) s₀ (before ++ [pop])).added S between :=
    System.added_append s₀ _ _
  have hnodup₁ : (s₀.added S before).Nodup :=
    (System.added_sublist_of_prefix s₀ ⟨[pop] ++ between, by simp⟩).nodup hnodup
  have hledger : Ledger h _ (run (System.step S) s₀ before) := ledger_run before devName hb hnodup₁
  obtain ⟨m₁, p, front, back, hm₁, hqueue, -, -, ht, hstep⟩ :=
    System.pops_cases (S := S) hpops
  obtain ⟨q, hq, hp⟩ : ∃ q ∈ s₀.added S before, p ∈ (h.sequence q).tasks := by
    have hmem : p ∈ m₁.taskQueue := by simp [hqueue]
    rw [hm₁.taskQueue] at hmem
    exact hledger.queued p (List.mem_of_mem_filter hmem)
  -- The first task popped is out of the queue, and stays out.
  have hout : OutOfReach (fun _ => none) h p (run (System.step S) s₀ (before ++ [pop])) := by
    refine ⟨?_, fun t h => nomatch h⟩
    rw [run_append, run_cons, run_nil, hstep]
    refine List.Nodup.not_mem_erase ?_
    rw [hm₁.taskQueue]
    exact hledger.nodup.filter _
  have hq₁ : q ∈ s₀.added S (before ++ [pop]) := by
    rw [System.added_append]
    exact List.mem_append_left _ hq
  have hlater := hout.run poppedOnly_none hb hp hq₁ (traced_run _ devName) (hadded ▸ hnodup)
  rw [← run_append] at hlater
  have htraced₂ : Traced h _ (run (System.step S) s₀ (before ++ [pop] ++ between)) :=
    traced_run _ devName
  obtain ⟨m₂, p', front', back', hm₂, hqueue', -, -, ht', -⟩ :=
    System.pops_cases (S := S) hpops'
  have hp' : p' ∈ (run (System.step S) s₀ (before ++ [pop] ++ between)).manager.taskQueue := by
    have hmem : p' ∈ m₂.taskQueue := by simp [hqueue']
    rw [hm₂.taskQueue] at hmem
    exact List.mem_of_mem_filter hmem
  obtain ⟨q', -, hmem'⟩ := htraced₂.queued p' hp'
  rw [ht, ht', (hledger.objects.trans hm₁.objects).id, (htraced₂.objects.trans hm₂.objects).id]
  intro heq
  exact hlater.notQueued (hb.id_inj q q' p p' hp hmem' heq ▸ hp')

/-- **PopTask schedules as promised**: the first task of the queue that may run, and none twice. -/
theorem popTask_schedules (hb : h.WellBuilt)
    (honce : ((System.create h devName).added S events).Nodup)
    (haccepted : ∀ q ∈ (System.create h devName).added S events, h.Accepted q) :
    PopsFirst S MayRun (System.create h devName) events
      ∧ PopsOnce S (System.create h devName) events :=
  ⟨popsFirst_mayRun hb honce haccepted, popsOnce hb honce⟩

def twoSequences : Heap :=
  (Heap.blank.buildSequence 0 (TaskSequence.create Clock.origin "s-1" "observe" false)
      [(0, Task.create Clock.origin "t-1" "Slew" 0 false),
        (1, Task.create Clock.origin "t-2" "Track" 0 false)]).buildSequence 1
    (TaskSequence.create Clock.origin "s-2" "park" false)
    [(2, ((Task.create Clock.origin "t-3" "Stow" 0 false).setActivationTime Clock.origin
      40000000).2)]

theorem wellBuilt_twoSequences : twoSequences.WellBuilt := by
  have hfirst : ∀ q, ((Heap.blank.buildSequence 0
      (TaskSequence.create Clock.origin "s-1" "observe" false)
      [(0, Task.create Clock.origin "t-1" "Slew" 0 false),
        (1, Task.create Clock.origin "t-2" "Track" 0 false)]).sequence q).tasks
      = if q = 0 then [0, 1] else []
    | 0 => rfl
    | _ + 1 => rfl
  refine (Heap.WellBuilt.blank.buildSequence rfl (fun _ hne => absurd rfl hne)
    (fun _ _ => Heap.fresh_blank) (by decide) (by decide)).buildSequence rfl
    (fun q hne hid => ?_) (fun item hitem => ?_) (by decide) (by decide)
  · cases q with
    | zero => exact absurd hid (by decide)
    | succ q => exact absurd (hfirst (q + 1)) hne
  · obtain rfl : item = _ := by simpa using hitem
    refine ⟨fun q hp => ?_, fun q p hp => ?_⟩
    · rw [hfirst] at hp
      cases q <;> simp at hp
    · rw [hfirst] at hp
      cases q with
      | zero =>
          simp only [if_true, List.mem_cons, List.not_mem_nil, or_false] at hp
          rcases hp with rfl | rfl <;> decide
      | succ q => simp at hp

def oneDependency : Heap :=
  (twoSequences.withDependency Clock.origin 0 [[], [0]]).withDependency Clock.origin 1 [[]]

theorem setTaskDependency_twoSequences :
    twoSequences.setTaskDependency Clock.origin 0 [[], [0]]
      = .ok (0, twoSequences.withDependency Clock.origin 0 [[], [0]]) := rfl

theorem setTaskDependency_oneDependency :
    (twoSequences.withDependency Clock.origin 0 [[], [0]]).setTaskDependency Clock.origin 1 [[]]
      = .ok (0, oneDependency) := rfl

theorem accepted_oneDependency : ∀ q ∈ [0, 1], oneDependency.Accepted q := by
  intro q hq
  simp only [List.mem_cons, List.not_mem_nil, or_false] at hq
  obtain rfl | rfl := hq
  · exact ⟨_, _, _, _, setTaskDependency_twoSequences, rfl, rfl, by decide⟩
  · exact ⟨_, _, _, _, setTaskDependency_oneDependency, rfl, rfl, by decide⟩

theorem wellBuilt_oneDependency : oneDependency.WellBuilt :=
  (wellBuilt_twoSequences.setTaskDependency setTaskDependency_twoSequences).setTaskDependency
    setTaskDependency_oneDependency

/-- The first task completes, its sequence is cleared, and the other sequence is added. -/
def clearedTooEarly : List Event :=
  addPopRun ++ [.worker .reportTask, .request .clearAllSequenceTasks,
    .request (.addTaskSequence (fun _ => true) (some 1) true)]

/-- When the third task has become active and the second has not timed out. -/
def afterActivation : Clock := { utc := 45000000, localTime := 45000000 }

theorem popTask_schedules_oneDependency :
    PopsFirst SetImpl.linear MayRun (System.create oneDependency "dish")
        (clearedTooEarly ++ [.worker (.popTask afterActivation)])
      ∧ PopsOnce SetImpl.linear (System.create oneDependency "dish")
        (clearedTooEarly ++ [.worker (.popTask afterActivation)]) := by
  have hadded : (System.create oneDependency "dish").added SetImpl.linear
      (clearedTooEarly ++ [.worker (.popTask afterActivation)]) = [0, 1] := by decide +kernel
  exact popTask_schedules wellBuilt_oneDependency (by rw [hadded]; decide)
    (by rw [hadded]; exact accepted_oneDependency)

/-- The second task is ready, and `PopTask` returns the third. -/
theorem not_popsFirst_ready_oneDependency :
    oneDependency.WellBuilt ∧ (∀ q ∈ [0, 1], oneDependency.Accepted q)
      ∧ (System.create oneDependency "dish").added SetImpl.linear
        (clearedTooEarly ++ [.worker (.popTask afterActivation)]) = [0, 1]
      ∧ ¬ PopsFirst SetImpl.linear Ready (System.create oneDependency "dish")
        (clearedTooEarly ++ [.worker (.popTask afterActivation)]) := by
  refine ⟨wellBuilt_oneDependency, accepted_oneDependency, by decide +kernel, fun hfirst => ?_⟩
  have hthird : (System.pops afterActivation (run (System.step SetImpl.linear)
      (System.create oneDependency "dish") clearedTooEarly)).map Task.id = some "t-3" := by
    decide +kernel
  obtain ⟨t, hpops, hid⟩ := Option.map_eq_some_iff.mp hthird
  obtain ⟨p, front, back, hqueue, -, ht, -, hfront⟩ :=
    hfirst clearedTooEarly afterActivation t List.prefix_rfl hpops
  set m := (run (System.step SetImpl.linear) (System.create oneDependency "dish")
    (clearedTooEarly ++ [.worker (.popTask afterActivation)])).manager with hm
  have hobjects : SameObjects oneDependency m.toHeap :=
    (traced_run (S := SetImpl.linear) (h := oneDependency) _ "dish").objects
  have hready : Ready afterActivation m 1 := by
    refine ⟨by decide +kernel, by decide +kernel, by decide +kernel, fun q i row hi hrow d hd => ?_⟩
    have hplace : (m.sequence 0).tasks[1]? = some 1 := by decide +kernel
    rw [hobjects.tasks] at hi hplace
    obtain ⟨rfl, rfl⟩ := wellBuilt_oneDependency.place_eq hi hplace
    have hmatrix : (m.sequence 0).dependencyMatrix[1]? = some [0] := by decide +kernel
    obtain rfl : row = [0] := Option.some.inj (hrow.symm.trans hmatrix)
    obtain rfl : d = 0 := by simpa using hd
    exact ⟨0, by decide +kernel, by decide +kernel⟩
  have hfiltered : ([1, 2] : List TaskPtr) = front ++ p :: back := hqueue ▸ by decide +kernel
  cases front with
  | nil =>
      obtain ⟨rfl, -⟩ : 1 = p ∧ [2] = back := by simpa using hfiltered
      exact absurd (hid.symm.trans (congrArg Task.id ht)) (by decide +kernel)
  | cons p' rest =>
      obtain ⟨rfl, -⟩ : 1 = p' ∧ [2] = rest ++ p :: back := by simpa using hfiltered
      exact hfront 1 List.mem_cons_self hready

end DshLmc
