import Mathlib.Data.Fintype.Basic
import DshLmc.Proof.DishRuns
import DshLmc.Proof.QueueCollection
import DshLmc.Proof.Statuses

/-!
# When a command is released

A command refuses or ignores a request while its progress attribute reads `INIT`, `IDLE` or
`RUNNING`. `UpdateStatusAttrs` copies the stored status of the most recent sequence there. So the
command is released with its last task as long as three things agree: an `IDLE` task is still going
to be run, a stored status of the three has a task behind it that is `IDLE` or running, and an
attribute that reads one of the three has a sequence in the collection, or a thread that is about to
put one there.
-/

namespace DshLmc

/-- The statuses whose names are in `taskSequence_progress_ongoing`. -/
def TaskStatus.isOngoing (status : TaskStatus) : Bool :=
  DishManager.taskSequence_progress_ongoing.contains (TaskManager.getTaskStatusString status)

theorem summaryStatus_isOngoing {statuses : List TaskStatus}
    (h : (summaryStatus statuses).isOngoing = true) :
    ∃ status ∈ statuses, status = .idle ∨ status = .running := by
  dsimp only [summaryStatus] at h
  split_ifs at h with htimedOut hcanceled hfailed hrunning hempty hidle hcompleted
  · exact absurd h (by decide)
  · exact absurd h (by decide)
  · exact absurd h (by decide)
  · simp only [Bool.or_eq_true, Bool.and_eq_true, List.any_eq_true, beq_iff_eq] at hrunning
    obtain ⟨status, hmem, hstatus⟩ | ⟨-, status, hmem, hstatus⟩ := hrunning
    · exact ⟨status, hmem, .inr hstatus⟩
    · exact ⟨status, hmem, .inl hstatus⟩
  · exact absurd h (by decide)
  · cases statuses with
    | nil => exact absurd rfl hempty
    | cons status rest =>
        simp only [List.all_cons, Bool.and_eq_true, beq_iff_eq] at hidle
        exact ⟨status, List.mem_cons_self, .inl hidle.1⟩
  · exact absurd h (by decide)
  · exact absurd h (by decide)

/-- A sequence whose stored status is ongoing has a task that is idle or running. -/
def Heap.Working (h : Heap) (q : TaskSequencePtr) : Prop :=
  (h.sequence q).status.isOngoing = true →
    ∃ p ∈ (h.sequence q).tasks, (h.task p).status = .idle ∨ (h.task p).status = .running

section

variable {h h' : Heap} {q : TaskSequencePtr}

theorem Heap.UpToDate.working (hu : h.UpToDate q) : h.Working q := by
  intro hongoing
  rw [hu, Heap.summary_fst] at hongoing
  obtain ⟨status, hmem, hstatus⟩ := summaryStatus_isOngoing hongoing
  obtain ⟨p, hp, rfl⟩ := List.mem_map.mp hmem
  exact ⟨p, hp, hstatus⟩

theorem Heap.Refreshed.working (hr : h.Refreshed h' q) (hw : h.Working q) : h'.Working q := by
  cases hr with
  | refreshed hu => exact hu.working
  | kept hstored htasks hstatus =>
      intro hongoing
      rw [hstored] at hongoing
      obtain ⟨p, hp, hp'⟩ := hw hongoing
      exact ⟨p, htasks ▸ hp, by rwa [hstatus p hp]⟩

theorem TaskManager.Enqueued.working {m m' : TaskManager} {ps : List TaskPtr}
    (he : Enqueued ps m m') (hw : m.Working q) : m'.Working q := by
  intro hongoing
  rw [he.sequence] at hongoing ⊢
  obtain ⟨p, hp, hp'⟩ := hw hongoing
  refine ⟨p, hp, ?_⟩
  rw [he.status]
  split
  · exact .inl rfl
  · exact hp'

end

/-- The step leaves no sequence with an ongoing status and no task that is idle or running. -/
def KeepsWorking (s : System) : Event → Prop
  | .request (.addTaskSequence _ (some q) false) => s.manager.Accepts q → s.manager.Working q
  | .worker (.popTask now) =>
      s.worker = .ready → s.signals.endSignal = false → ∀ q ∈ s.manager.taskSequences,
        (s.manager.sequence q).status.isOngoing = true → ∃ p ∈ (s.manager.sequence q).tasks,
          ((s.manager.task p).status = .idle ∨ (s.manager.task p).status = .running)
            ∧ (p ∈ s.manager.taskQueue → (s.manager.task p).isExpirationReached now = false)
  | _ => True

section

variable {S : SetImpl TaskPtr} {s : System} {q : TaskSequencePtr}

theorem working_addTaskSequence (hw : ∀ q ∈ s.manager.taskSequences, s.manager.Working q)
    {hasAttribute : String → Bool} {addToQueue : Bool}
    (hc : KeepsWorking s (.request (.addTaskSequence hasAttribute (some q) addToQueue))) :
    ∀ q' ∈ (s.request S (.addTaskSequence hasAttribute (some q) addToQueue)).manager.taskSequences,
      (s.request S (.addTaskSequence hasAttribute (some q) addToQueue)).manager.Working q' := by
  rcases s.manager.addTaskSequence_cases (S := S) hasAttribute (some q) addToQueue s.signals with
    ⟨-, heq⟩ | ⟨q₀, front, p₀, back, hq, -, rfl, -, -, -, -, heq⟩ | ⟨q₀, hq, haccepts, -, heq⟩
  · simp only [System.request, TaskManager.call, heq]
    exact hw
  · have henqueued := TaskManager.enqueued_enqueueTasks (S := S) front s.manager
    simp only [System.request, TaskManager.call, heq]
    rw [henqueued.taskSequences]
    exact fun q' hq' => henqueued.working (hw q' hq')
  · cases hq
    have henqueued := TaskManager.enqueued_enqueueTasks (S := S)
      (if addToQueue then (s.manager.sequence q).tasks else []) s.manager
    simp only [System.request, TaskManager.call, heq]
    intro q' hq'
    obtain hold | hnew := List.mem_append.mp hq'
    · exact henqueued.working (hw q' hold)
    obtain rfl := List.mem_singleton.mp hnew
    cases addToQueue with
    | false => exact henqueued.working (hc haccepts)
    | true =>
        -- All its tasks are idle now.
        intro _
        obtain ⟨p, hp⟩ := List.exists_mem_of_ne_nil _ haccepts.1
        change p ∈ (s.manager.sequence q').tasks at hp
        refine ⟨p, by rwa [henqueued.sequence], .inl ?_⟩
        rw [henqueued.status]
        exact if_pos hp

theorem working_step (hb : s.manager.WellBuilt)
    (hw : ∀ q ∈ s.manager.taskSequences, s.manager.Working q) {e : Event}
    (hc : KeepsWorking s e) :
    ∀ q ∈ (s.step S e).manager.taskSequences, (s.step S e).manager.Working q := by
  cases e with
  | request r =>
      by_cases hr : ∃ hasAttribute q addToQueue,
          r = .addTaskSequence hasAttribute (some q) addToQueue
      · obtain ⟨hasAttribute, q, addToQueue, rfl⟩ := hr
        exact working_addTaskSequence hw hc
      · simp only [not_exists] at hr
        intro q hq
        have hsublist : (s.manager.call S r s.signals).2.2.taskSequences.Sublist _ :=
          (TaskManager.call_sublist hr).2
        have htracked := hsublist.subset hq
        exact (TaskManager.refreshed_call hb hr).working (hw q htracked)
  | worker w =>
      intro q hq
      have htracked : q ∈ s.manager.taskSequences := (s.workerMove w).taskSequences ▸ hq
      change (s.workerStep w).manager.Working q
      obtain hsame | ⟨now, rfl, hready, hpop⟩ | ⟨task, outcome, hreport⟩ :=
        s.manager_workerStep_cases w
      · rw [hsame]
        exact hw q htracked
      · rw [hpop]
        intro hongoing
        rw [TaskManager.sequence_popTask] at hongoing ⊢
        by_cases hend : s.signals.endSignal = false
        · obtain ⟨p, hp, hstatus, hlasts⟩ := hc hready hend q htracked hongoing
          refine ⟨p, hp, ?_⟩
          obtain hsame | ⟨-, hqueued, hreached⟩ := s.manager.status_popTask now s.signals p
          · rwa [hsame]
          · rw [hlasts hqueued] at hreached
            cases hreached
        · obtain ⟨p, hp, hstatus⟩ := hw q htracked hongoing
          refine ⟨p, hp, ?_⟩
          obtain hsame | ⟨hended, -⟩ := s.manager.status_popTask now s.signals p
          · rwa [hsame]
          · exact absurd hended hend
      · rw [hreport]
        exact (TaskManager.refreshed_setSequenceTaskStatus hb).working (hw q htracked)

end

def System.Live (s : System) (p : TaskPtr) : Prop :=
  s.Pending p ∨ (s.manager.task p).status = .running

instance (s : System) (p : TaskPtr) : Decidable (s.Live p) :=
  inferInstanceAs (Decidable (s.Pending p ∨ (s.manager.task p).status = .running))

theorem System.live_of_isOngoing {s : System} {q : TaskSequencePtr} (hi : s.IdlePending)
    (hw : s.manager.Working q) (hq : q ∈ s.manager.taskSequences)
    (hongoing : (s.manager.sequence q).status.isOngoing = true) :
    ∃ p ∈ (s.manager.sequence q).tasks, s.Live p := by
  obtain ⟨p, hp, hidle | hrunning⟩ := hw hongoing
  · exact ⟨p, hp, .inl (hi q hq p hp hidle)⟩
  · exact ⟨p, hp, .inr hrunning⟩

namespace DishManager

variable {ι : Type} [DecidableEq ι] (S : SetImpl TaskPtr) (props : Properties) (h : Heap)

/-- Some sequence that reports in the attribute has a task that is going to be run or running. -/
def LiveWork (s : System) (attr_name : String) : Prop :=
  ∃ q, h.Reports q attr_name ∧ ∃ p ∈ (h.sequence q).tasks, s.Live p

def Tracked (s : System) (attr_name : String) : Prop :=
  ∃ q ∈ s.manager.taskSequences, h.Reports q attr_name

/-- The command is released once its work is done. -/
def Released (d : DishManager ι) (attr_name : String) : Prop :=
  ¬ LiveWork h d.system attr_name → isTaskRunning (d.attrs.progress attr_name) = false

/-- The attribute in which the thread is about to report: it writes that the command is over, or it
adds a sequence, and writes that it is over if it cannot. -/
def settled : List Action → Option String
  | .setProgress attr_name msg :: _ => if isTaskRunning msg then none else some attr_name
  | .call _ :: rest => settled rest
  | .addTaskSequence _ q (some (attr_name, msg)) :: _ =>
      if h.Reports q attr_name ∧ isTaskRunning msg = false then some attr_name else none
  | _ => none

/-- The write of a command, and what the command does after it. -/
def commandWrite (d : DishManager ι) :
    Input ι → Option (WriteOutcome × String × List String × List Action)
  | .act t outcome =>
      match (d.threads t).rest with
      | .setProgress attr_name msg :: rest => some (outcome, attr_name, msg, rest)
      | _ => none
  | _ => none

/-- An ongoing status is written for a sequence in the collection, or before the sequence is added.
A write that fails leaves no ongoing status behind. -/
def WritesForTracked (d : DishManager ι) (outcome : WriteOutcome) (attr_name : String)
    (msg : List String) (rest : List Action) : Prop :=
  if outcome = .failsBefore then
    isTaskRunning (d.attrs.progress attr_name) = true → Tracked h d.system attr_name
  else
    isTaskRunning msg = true → Tracked h d.system attr_name
      ∨ outcome = .succeeds ∧ settled h rest = some attr_name

def startsUpdate : Input ι → Bool
  | .start _ .updateStatusAttrs => true
  | _ => false

/-- In every run: whenever `UpdateStatusAttrs` has just run, each command whose work is done is
released. -/
def ReleasesCommands (start : DishManager ι) (inputs : List (Input ι)) : Prop :=
  ∀ past t, past ++ command t .updateStatusAttrs (3 * props.taskSequenceStatusAttrList.length)
      <+: inputs →
    ((run (step S props) start past).threads t).rest = [] →
      ∀ attr_name ∈ props.taskSequenceStatusAttrList, Released h
        (run (step S props) start (past
          ++ command t .updateStatusAttrs (3 * props.taskSequenceStatusAttrList.length))) attr_name

/-- The step keeps a task behind every ongoing status. -/
structure KeepsReleasable (d : DishManager ι) (i : Input ι) : Prop where
  pending : ∀ e ∈ d.eventOf i, KeepsPending d.system e
  working : ∀ e ∈ d.eventOf i, KeepsWorking d.system e
  kept : ∀ q ∈ d.system.manager.taskSequences, h.Reports q (h.sequence q).statusAttrName →
    isTaskRunning (d.attrs.progress (h.sequence q).statusAttrName) = true →
      ∃ q' ∈ d.system.manager.taskSequences, h.Reports q' (h.sequence q).statusAttrName
        ∧ d.drops i (d.system.manager.sequence q') = false
  commandWrites : ∀ write ∈ commandWrite d i,
    WritesForTracked h d write.1 write.2.1 write.2.2.1 write.2.2.2
  statusWrites : ∀ write ∈ statusWrite d i, write.2.2.status.isOngoing = true →
    Tracked h d.system write.2.1
  update : startsUpdate i = true → ∀ t, ∀ attr_name ∈ settled h (d.threads t).rest,
    isTaskRunning (d.attrs.progress attr_name) = false

/-- What holds between two steps. -/
structure Releasable (d : DishManager ι) : Prop where
  traced : ∃ added, Traced h added d.system
  pending : d.system.IdlePending
  working : ∀ q ∈ d.system.manager.taskSequences, d.system.manager.Working q
  reads : ∀ attr_name, isTaskRunning (d.attrs.progress attr_name) = true →
    Tracked h d.system attr_name ∨ ∃ t, settled h (d.threads t).rest = some attr_name

section

variable {S props h} {d : DishManager ι} {i : Input ι} {t : ι} {attr_name : String}
  {rest : List Action} {outcome : WriteOutcome}

theorem isTaskRunning_statusValue {info : TaskInfo} {attr_values : List String}
    (hrunning : isTaskRunning (statusValue info attr_values) = true) :
    info.status.isOngoing = true := by
  cases attr_values with
  | nil => cases hrunning
  | cons value values => exact hrunning

theorem tracked_step (ht : Tracked h d.system attr_name) (hc : KeepsReleasable h d i)
    (hkept : isTaskRunning (d.attrs.progress attr_name) = true ∨ d.eventOf i = none) :
    Tracked h (d.step S props i).system attr_name := by
  obtain ⟨q, hq, hr⟩ := ht
  have hleft : ∃ q ∈ d.system.manager.taskSequences, h.Reports q attr_name
      ∧ d.drops i (d.system.manager.sequence q) = false := by
    obtain hrunning | hnone := hkept
    · obtain rfl := hr.eq
      exact hc.kept q hq hr hrunning
    · exact ⟨q, hq, hr, by rw [drops, hnone]; rfl⟩
  obtain ⟨q', hq', hr', hdrops⟩ := hleft
  refine ⟨q', ?_, hr'⟩
  rw [taskSequences_step]
  exact List.mem_append_left _ (List.mem_filter.mpr ⟨hq', by rw [hdrops]; rfl⟩)

omit [DecidableEq ι] in
theorem tracked_request {hasAttribute : String → Bool} {q : TaskSequencePtr}
    (hr : h.Reports q attr_name)
    (hcode : ¬ (d.system.manager.call S (.addTaskSequence hasAttribute (some q) true)
      d.system.signals).1 < 0) :
    Tracked h (d.request S (.addTaskSequence hasAttribute (some q) true)).system attr_name := by
  rcases d.system.manager.addTaskSequence_cases (S := S) hasAttribute (some q) true
    d.system.signals with ⟨-, heq⟩ | ⟨q₀, front, p₀, back, -, -, -, -, -, -, -, heq⟩
      | ⟨q₀, hq, -, -, heq⟩
  · exact absurd (by simp [TaskManager.call, heq]) hcode
  · exact absurd (by simp [TaskManager.call, heq]) hcode
  · cases hq
    refine ⟨q, ?_, hr⟩
    simp only [request, System.request, TaskManager.call, heq]
    exact List.mem_append_right _ (List.mem_singleton_self q)

theorem settled_act (hsettled : settled h (d.threads t).rest = some attr_name)
    (hc : KeepsReleasable h d (.act t outcome))
    (hrunning : isTaskRunning ((d.step S props (.act t outcome)).attrs.progress attr_name) = true) :
    Tracked h (d.step S props (.act t outcome)).system attr_name
      ∨ settled h ((d.step S props (.act t outcome)).threads t).rest = some attr_name := by
  have hperform : ∀ a rest, (d.threads t).rest = a :: rest →
      d.step S props (.act t outcome) = d.perform S t outcome rest a :=
    fun a rest hrest => act_eq_perform hrest
  unfold settled at hsettled
  split at hsettled
  · rename_i written_name msg rest hrest
    left
    split at hsettled
    · cases hsettled
    rename_i hmsg
    obtain rfl := Option.some.inj hsettled
    have hnone : d.eventOf (.act t outcome) = none := by simp [eventOf, hrest]
    by_cases houtcome : outcome = .failsBefore
    · subst houtcome
      refine tracked_step ?_ hc (.inr hnone)
      have hwrites := hc.commandWrites (.failsBefore, written_name, msg, rest)
        (by simp [commandWrite, hrest])
      refine hwrites ?_
      simpa [hperform _ _ hrest, perform, setProgress, Attrs.setProgress, goOn, setThread]
        using hrunning
    · refine absurd ?_ hmsg
      simpa [hperform _ _ hrest, perform, setProgress, Attrs.setProgress, goOn, setThread, houtcome]
        using hrunning
  · rename_i r rest hrest
    right
    rw [hperform _ _ hrest]
    simpa [perform] using hsettled
  · rename_i hasAttribute q written_name msg rest hrest
    split at hsettled
    swap
    · cases hsettled
    rename_i hreports
    obtain rfl := Option.some.inj hsettled
    rw [hperform _ _ hrest]
    by_cases hcode : (d.system.manager.call S (.addTaskSequence hasAttribute (some q) true)
        d.system.signals).1 < 0
    · right
      simp [perform, afterAddTaskSequence, hcode, settled, hreports.2]
    · exact .inl (tracked_request hreports.1 hcode)
  · cases hsettled

theorem settled_step (hsettled : settled h (d.threads t).rest = some attr_name)
    (hc : KeepsReleasable h d i)
    (hrunning : isTaskRunning ((d.step S props i).attrs.progress attr_name) = true) :
    Tracked h (d.step S props i).system attr_name
      ∨ settled h ((d.step S props i).threads t).rest = some attr_name := by
  cases i with
  | start t' c =>
      right
      simp only [step, start]
      split
      · rename_i hidle
        have ht : t ≠ t' := by
          rintro rfl
          rw [List.isEmpty_iff.mp hidle] at hsettled
          cases hsettled
        rwa [threads_setThread_of_ne ht]
      · exact hsettled
  | act t' outcome =>
      by_cases ht : t = t'
      · subst ht
        exact settled_act hsettled hc hrunning
      · right
        rw [step, threads_act_of_ne ht]
        exact hsettled
  | _ => exact .inr hsettled

theorem Releasable.reads_step (hd : Releasable h d) (hc : KeepsReleasable h d i)
    (hrunning : isTaskRunning ((d.step S props i).attrs.progress attr_name) = true) :
    Tracked h (d.step S props i).system attr_name
      ∨ ∃ t, settled h ((d.step S props i).threads t).rest = some attr_name := by
  have hmove := @progressMove _ _ props S d i attr_name
  generalize hvalue : (d.step S props i).attrs.progress attr_name = value at hmove
  have hrunning' := hrunning
  rw [hvalue] at hrunning'
  cases hmove with
  | kept =>
      obtain htracked | ⟨t, hsettled⟩ := hd.reads attr_name hrunning'
      · exact .inl (tracked_step htracked hc (.inl hrunning'))
      · exact (settled_step hsettled hc hrunning).imp_right fun hafter => ⟨t, hafter⟩
  | @command t outcome _ rest hi hrest hwrites =>
      subst hi
      have hall := hc.commandWrites (outcome, attr_name, value, rest)
        (by simp [commandWrite, hrest])
      rw [WritesForTracked, if_neg hwrites] at hall
      obtain htracked | ⟨rfl, hsettled⟩ := hall hrunning'
      · exact .inl (tracked_step htracked hc (.inr (by simp [eventOf, hrest])))
      · right
        refine ⟨t, ?_⟩
        rw [step, act_eq_perform hrest]
        simpa [perform] using hsettled
  | @status t outcome info rest hi hrest hinfo hwrites =>
      subst hi
      have htracked := hc.statusWrites (t, attr_name, info)
        (by simp [statusWrite, hrest, hinfo, hwrites]) (isTaskRunning_statusValue hrunning')
      exact .inl (tracked_step htracked hc (.inr (by simp [eventOf, hrest])))

theorem Releasable.step (hb : h.WellBuilt) (hd : Releasable h d) (hc : KeepsReleasable h d i) :
    Releasable h (d.step S props i) where
  traced := by
    obtain ⟨added, ht⟩ := hd.traced
    exact ⟨_, traced_step ht i⟩
  pending := by
    obtain ⟨added, ht⟩ := hd.traced
    obtain ⟨hsystem, -⟩ | ⟨e, he, hsystem, -⟩ := system_step_cases props S d i
    · rw [hsystem]
      exact hd.pending
    · rw [hsystem]
      exact hd.pending.step hb ht (hc.pending e he)
  working := by
    obtain ⟨added, ht⟩ := hd.traced
    obtain ⟨hsystem, -⟩ | ⟨e, he, hsystem, -⟩ := system_step_cases props S d i
    · rw [hsystem]
      exact hd.working
    · rw [hsystem]
      exact working_step (hb.of_samePlaces ht.objects.samePlaces) hd.working (hc.working e he)
  reads attr_name hrunning := hd.reads_step hc hrunning

omit [DecidableEq ι] in
theorem releasable_initial (devName : String) {attrs : Attrs}
    (hattrs : ∀ attr_name, isTaskRunning (attrs.progress attr_name) = false) :
    Releasable h (DishManager.initial h devName attrs : DishManager ι) where
  traced := ⟨[], Traced.create h devName⟩
  pending q hq := (List.not_mem_nil hq).elim
  working q hq := (List.not_mem_nil hq).elim
  reads attr_name hrunning := by
    rw [DishManager.initial, hattrs attr_name] at hrunning
    cases hrunning

theorem run_updateAttr (hrest : (d.threads t).rest
      = .getStatusInfo attr_name :: .getStatusAttr attr_name :: .setStatusAttr attr_name :: rest) :
    (run (step S props) d (List.replicate 3 (.act t .succeeds))).system = d.system
      ∧ ((run (step S props) d (List.replicate 3 (.act t .succeeds))).threads t).rest = rest
      ∧ (run (step S props) d (List.replicate 3 (.act t .succeeds))).attrs.progress
        = (mostRecentInfo d.system.manager attr_name).elim d.attrs.progress fun info =>
          Function.update d.attrs.progress attr_name
            (statusValue info (d.attrs.progress attr_name)) := by
  cases hinfo : mostRecentInfo d.system.manager attr_name <;>
    simp [List.replicate, step, act, hrest, perform, setThread, goOn, hinfo, setProgress,
      Attrs.setProgress]

theorem liveWork_update {attr_names : List String}
    (hrest : (d.threads t).rest = attr_names.flatMap fun attr_name =>
      [.getStatusInfo attr_name, .getStatusAttr attr_name, .setStatusAttr attr_name])
    (hinfo : ∀ info ∈ mostRecentInfo d.system.manager attr_name, info.status.isOngoing = true →
      LiveWork h d.system attr_name)
    (hnone : mostRecentInfo d.system.manager attr_name = none →
      isTaskRunning (d.attrs.progress attr_name) = true → LiveWork h d.system attr_name)
    (hmem : attr_name ∈ attr_names ∨
      (isTaskRunning (d.attrs.progress attr_name) = true → LiveWork h d.system attr_name)) :
    (run (step S props) d (List.replicate (3 * attr_names.length) (.act t .succeeds))).system
        = d.system
      ∧ (isTaskRunning ((run (step S props) d (List.replicate (3 * attr_names.length)
          (.act t .succeeds))).attrs.progress attr_name) = true →
        LiveWork h d.system attr_name) := by
  induction attr_names generalizing d with
  | nil => exact ⟨rfl, hmem.resolve_left List.not_mem_nil⟩
  | cons updated_name attr_names ih =>
      obtain ⟨hsystem, hafter, hprogress⟩ := @run_updateAttr _ _ S props _ _ _ _ hrest
      have hsplit : List.replicate (3 * (updated_name :: attr_names).length) (Input.act t .succeeds)
          = List.replicate 3 (.act t .succeeds)
            ++ List.replicate (3 * attr_names.length) (.act t .succeeds) := by
        rw [← List.replicate_add, List.length_cons]
        congr 1
        omega
      rw [hsplit, run_append]
      generalize run (step S props) d (List.replicate 3 (.act t .succeeds)) = d' at *
      rw [← hsystem] at hinfo hnone hmem hprogress ⊢
      have hsame : attr_name ≠ updated_name →
          d'.attrs.progress attr_name = d.attrs.progress attr_name := by
        intro hne
        rw [hprogress]
        cases mostRecentInfo d'.system.manager updated_name with
        | none => rfl
        | some info => exact Function.update_of_ne hne ..
      have hupdated : attr_name = updated_name →
          isTaskRunning (d'.attrs.progress attr_name) = true → LiveWork h d'.system attr_name := by
        rintro rfl
        rw [hprogress]
        cases hmost : mostRecentInfo d'.system.manager attr_name with
        | none => exact hnone hmost
        | some info =>
            rw [Option.elim_some, Function.update_self]
            exact fun hrunning => hinfo info hmost (isTaskRunning_statusValue hrunning)
      by_cases hname : attr_name = updated_name
      · exact ih hafter hinfo (fun _ => hupdated hname) (.inr (hupdated hname))
      · rw [← hsame hname] at hnone hmem
        refine ih hafter hinfo hnone (hmem.imp_left fun hin => ?_)
        exact (List.mem_cons.mp hin).resolve_left hname

omit [DecidableEq ι] in
/-- An ongoing status that `UpdateStatusAttrs` reads has live work behind it. -/
theorem Releasable.liveWork_of_info (hd : Releasable h d) {info : TaskInfo}
    (hinfo : info ∈ mostRecentInfo d.system.manager attr_name)
    (hongoing : info.status.isOngoing = true) : LiveWork h d.system attr_name := by
  rw [mostRecentInfo_eq] at hinfo
  obtain ⟨q, hq, rfl⟩ := Option.map_eq_some_iff.mp hinfo
  obtain ⟨added, ht⟩ := hd.traced
  have hmem := List.mem_filter.mp (List.argmax_mem hq)
  have hr : h.Reports q attr_name := by
    rw [Heap.Reports, ← ht.objects.matchTaskSequenceByDevAttrName]
    exact hmem.2
  obtain ⟨p, hp, hlive⟩ :=
    System.live_of_isOngoing hd.pending (hd.working q hmem.1) hmem.1 hongoing
  exact ⟨q, hr, p, ht.objects.tasks ▸ hp, hlive⟩

omit [DecidableEq ι] in
theorem Releasable.not_tracked_of_none (hd : Releasable h d)
    (hnone : mostRecentInfo d.system.manager attr_name = none) : ¬ Tracked h d.system attr_name := by
  rintro ⟨q, hq, hr⟩
  obtain ⟨added, ht⟩ := hd.traced
  rw [mostRecentInfo_eq, Option.map_eq_none_iff, TaskManager.mostRecent,
    List.argmax_eq_none] at hnone
  refine List.not_mem_nil (hnone ▸ List.mem_filter.mpr ⟨hq, ?_⟩)
  rw [ht.objects.matchTaskSequenceByDevAttrName]
  exact hr

variable {attrs : Attrs} {inputs : List (Input ι)}

/-- **A command is locked out only while it has live work**, in every run whose steps all keep a task
behind every ongoing status. -/
theorem releasesCommands_of_keepsReleasable (hb : h.WellBuilt) (devName : String)
    (hattrs : ∀ attr_name, isTaskRunning (attrs.progress attr_name) = false)
    (hrun : Along (step S props) (KeepsReleasable h) (DishManager.initial h devName attrs) inputs) :
    ReleasesCommands S props h (DishManager.initial h devName attrs) inputs := by
  rintro past t ⟨later, rfl⟩ hidle attr_name hmem hdone
  obtain ⟨hpast, hcommand, -⟩ := along_append.mp (along_append.mp hrun).1
  have hd : Releasable h (run (step S props) (DishManager.initial h devName attrs) past) :=
    run_invariant (fun d i hd hc => hd.step hb hc) (releasable_initial devName hattrs) hpast
  rw [command, run_append, run_cons] at hdone ⊢
  generalize run (step S props) (DishManager.initial h devName attrs) past = d at *
  have hstart : d.step S props (.start t .updateStatusAttrs)
      = d.setThread t { Thread.initial with rest := update_status_attrs props } := by
    simp [step, start, hidle, Command.actions]
  rw [hstart] at hdone ⊢
  have hnone : mostRecentInfo d.system.manager attr_name = none →
      isTaskRunning (d.attrs.progress attr_name) = true → LiveWork h d.system attr_name := by
    intro hnone hrunning
    obtain htracked | ⟨t', hsettled⟩ := hd.reads attr_name hrunning
    · exact absurd htracked (hd.not_tracked_of_none hnone)
    · rw [hcommand.update rfl t' attr_name hsettled] at hrunning
      cases hrunning
  obtain ⟨hsystem, hlive⟩ := @liveWork_update _ _ S props h
    (d.setThread t { Thread.initial with rest := update_status_attrs props }) t attr_name _
    (by simp [setThread, update_status_attrs]) (fun info hinfo => hd.liveWork_of_info hinfo) hnone
    (.inl hmem)
  rw [← Bool.not_eq_true]
  intro hrunning
  rw [hsystem] at hdone
  exact hdone (hlive hrunning)

end

/-! ### Two runs -/

instance (worker : Worker) : Decidable (worker = .ready) :=
  match worker with
  | .ready => .isTrue rfl
  | .sleeping => .isFalse (by simp)
  | .popped _ => .isFalse (by simp)
  | .handled _ _ => .isFalse (by simp)

instance (s : System) : (e : Event) → Decidable (KeepsWorking s e)
  | .request (.addTaskSequence _ (some q) false) =>
      inferInstanceAs (Decidable (s.manager.Accepts q →
        (s.manager.sequence q).status.isOngoing = true → ∃ p ∈ (s.manager.sequence q).tasks,
          (s.manager.task p).status = .idle ∨ (s.manager.task p).status = .running))
  | .worker (.popTask now) =>
      inferInstanceAs (Decidable (s.worker = .ready → s.signals.endSignal = false →
        ∀ q ∈ s.manager.taskSequences, (s.manager.sequence q).status.isOngoing = true →
          ∃ p ∈ (s.manager.sequence q).tasks,
            ((s.manager.task p).status = .idle ∨ (s.manager.task p).status = .running)
              ∧ (p ∈ s.manager.taskQueue → (s.manager.task p).isExpirationReached now = false)))
  | .request (.addTaskSequence _ (some _) true) => .isTrue trivial
  | .request (.addTaskSequence _ none _) => .isTrue trivial
  | .request (.removeTaskSequence _) => .isTrue trivial
  | .request (.revokeTaskSequence _) => .isTrue trivial
  | .request (.revokeTask _) => .isTrue trivial
  | .request .flushQueue => .isTrue trivial
  | .request (.setSequenceTaskStatus _ _ _ _) => .isTrue trivial
  | .request (.setAsynchTaskStatus _ _ _) => .isTrue trivial
  | .request .clearAllSequenceTasks => .isTrue trivial
  | .request (.clearSequenceTasks _ _ _ _) => .isTrue trivial
  | .request (.clearCompletedSequenceTasks _ _ _) => .isTrue trivial
  | .request .wakeUp => .isTrue trivial
  | .request .endThread => .isTrue trivial
  | .request (.setMaxNTasksInQueue _) => .isTrue trivial
  | .request (.setMaxNTasksInCollection _) => .isTrue trivial
  | .worker (.awake _) => .isTrue trivial
  | .worker (.runTask _) => .isTrue trivial
  | .worker .reportTask => .isTrue trivial

instance (s : System) (attr_name : String) : Decidable (Tracked h s attr_name) :=
  inferInstanceAs (Decidable (∃ q ∈ s.manager.taskSequences, h.Reports q attr_name))

instance (d : DishManager ι) (outcome : WriteOutcome) (attr_name : String) (msg : List String)
    (rest : List Action) : Decidable (WritesForTracked h d outcome attr_name msg rest) :=
  inferInstanceAs (Decidable (if outcome = .failsBefore then
      isTaskRunning (d.attrs.progress attr_name) = true → Tracked h d.system attr_name
    else isTaskRunning msg = true → Tracked h d.system attr_name
      ∨ outcome = .succeeds ∧ settled h rest = some attr_name))

instance [Fintype ι] (d : DishManager ι) (i : Input ι) : Decidable (KeepsReleasable h d i) :=
  decidable_of_iff
    ((∀ e ∈ d.eventOf i, KeepsPending d.system e) ∧ (∀ e ∈ d.eventOf i, KeepsWorking d.system e)
      ∧ (∀ q ∈ d.system.manager.taskSequences, h.Reports q (h.sequence q).statusAttrName →
        isTaskRunning (d.attrs.progress (h.sequence q).statusAttrName) = true →
          ∃ q' ∈ d.system.manager.taskSequences, h.Reports q' (h.sequence q).statusAttrName
            ∧ d.drops i (d.system.manager.sequence q') = false)
      ∧ (∀ write ∈ commandWrite d i,
        WritesForTracked h d write.1 write.2.1 write.2.2.1 write.2.2.2)
      ∧ (∀ write ∈ statusWrite d i, write.2.2.status.isOngoing = true →
        Tracked h d.system write.2.1)
      ∧ (startsUpdate i = true → ∀ t, ∀ attr_name ∈ settled h (d.threads t).rest,
        isTaskRunning (d.attrs.progress attr_name) = false))
    ⟨fun ⟨h₁, h₂, h₃, h₄, h₅, h₆⟩ => ⟨h₁, h₂, h₃, h₄, h₅, h₆⟩,
      fun ⟨h₁, h₂, h₃, h₄, h₅, h₆⟩ => ⟨h₁, h₂, h₃, h₄, h₅, h₆⟩⟩

def stowEstopHeap : Heap :=
  addPrepared Clock.origin 1 (estopSequence dishProperties)
    (addPrepared Clock.origin 0 (stowSequence dishProperties) Heap.blank)

theorem built_stowEstopHeap : stowEstopHeap.Built [1, 0] := by
  have hfirst : (addPrepared Clock.origin 0 (stowSequence dishProperties) Heap.blank).Built [0] :=
    Heap.Built.blank.buildSequence rfl (by decide +kernel) (by decide +kernel) (by decide +kernel)
      (by decide +kernel)
  exact hfirst.buildSequence rfl (by decide +kernel) (by decide +kernel) (by decide +kernel)
    (by decide +kernel)

def runNext : List (Input Bool) :=
  [.event (.worker (.popTask Clock.origin)), .event (.worker (.runTask .done)),
    .event (.worker .reportTask)]

def stowed : List (Input Bool) :=
  command false (.setStowMode true 0) 5 ++ runNext ++ runNext ++ runNext
    ++ [.event (.request (.setAsynchTaskStatus "dsStowProgress" .completed "")),
      .event (.request (.setAsynchTaskStatus "spfSetStandbyLPModeProgress" .completed ""))]

def stoppedBeforeStow : List (Input Bool) :=
  command false (.setStowMode true 0) 5 ++ command false (.handleESTOPEvent (some 4) 1) 7

theorem releasesCommands_of_keepsReleasable_stow :
    ReleasesCommands SetImpl.linear dishProperties stowEstopHeap
      (DishManager.initial stowEstopHeap "dish" (dishAttrs "ON"))
      (stowed ++ command true .updateStatusAttrs 12) :=
  releasesCommands_of_keepsReleasable built_stowEstopHeap.wellBuilt "dish" (fun _ => rfl)
    (by decide +kernel)

/-- The flushed tasks stay `IDLE` in the collection, and the attribute reads `INIT` without work. -/
theorem not_releasesCommands_stop :
    stowEstopHeap.WellBuilt
      ∧ (∀ attr_name, isTaskRunning ((dishAttrs "ON").progress attr_name) = false)
      ∧ ¬ ReleasesCommands SetImpl.linear dishProperties stowEstopHeap
        (DishManager.initial stowEstopHeap "dish" (dishAttrs "ON"))
        (stoppedBeforeStow ++ command true .updateStatusAttrs 12) := by
  refine ⟨built_stowEstopHeap.wellBuilt, fun _ => rfl, fun hreleases => ?_⟩
  have hreleased := hreleases stoppedBeforeStow true List.prefix_rfl (by decide +kernel)
    "setStowModeProgress" (by decide)
  refine absurd (hreleased ?_) (by decide +kernel)
  rintro ⟨q, hr, p, hp, hlive⟩
  have hq : q ∈ [1, 0] := built_stowEstopHeap.built q p hp
  have hstop : ¬ stowEstopHeap.Reports 1 "setStowModeProgress" := by decide +kernel
  obtain rfl | hq := List.mem_cons.mp hq
  · exact hstop hr
  obtain rfl := List.mem_singleton.mp hq
  have hdone : ∀ p ∈ (stowEstopHeap.sequence 0).tasks, ¬ (run (step SetImpl.linear dishProperties)
      (DishManager.initial stowEstopHeap "dish" (dishAttrs "ON"))
      (stoppedBeforeStow ++ command true .updateStatusAttrs 12)).system.Live p := by
    decide +kernel
  exact hdone p hp hlive

end DishManager

end DshLmc
