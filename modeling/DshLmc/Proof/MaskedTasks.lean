import DshLmc.Proof.Statuses

/-!
# What the status of a sequence shows of its tasks

`ComputeStatus` writes the status once for each kind of task that it has found, and the last write
stays. The writes for running and for timed out tasks look whether a task has failed. The write for
canceled tasks comes after the one for failed tasks and looks at nothing.
-/

namespace DshLmc

variable {seqName seqId : String} {statuses : List TaskStatus} {tasks : List Task}

def Shows (tasks : List Task) (status : TaskStatus) : Prop := ∃ t ∈ tasks, t.status = status

instance (tasks : List Task) (status : TaskStatus) : Decidable (Shows tasks status) :=
  inferInstanceAs (Decidable (∃ t ∈ tasks, t.status = status))

def HasFailed (tasks : List Task) : Prop := Shows tasks .failed ∨ Shows tasks .aborted

instance (tasks : List Task) : Decidable (HasFailed tasks) :=
  inferInstanceAs (Decidable (_ ∨ _))

/-- The status of a sequence does not depend on the order of its tasks, is `COMPLETED` when all tasks
are, and otherwise shows a failed task, or else an expired one, or else a running one. -/
structure NeverMasks (seqName seqId : String) (tasks : List Task) : Prop where
  order : ∀ tasks', tasks'.Perm tasks →
    (summarize seqName seqId tasks').1 = (summarize seqName seqId tasks).1
  completed : (summarize seqName seqId tasks).1 = .completed
    ↔ ∀ t ∈ tasks, t.status = .completed
  failed : HasFailed tasks → (summarize seqName seqId tasks).1 = .failed
  expired : ¬ HasFailed tasks → Shows tasks .expired →
    (summarize seqName seqId tasks).1 = .expired
  running : ¬ HasFailed tasks → ¬ Shows tasks .expired → Shows tasks .running →
    (summarize seqName seqId tasks).1 = .running

/-- Next to a canceled task there is no failed one, and a running one only with an expired one. -/
def CanceledAlone (tasks : List Task) : Prop :=
  Shows tasks .canceled → ¬ HasFailed tasks ∧ (Shows tasks .running → Shows tasks .expired)

instance (tasks : List Task) : Decidable (CanceledAlone tasks) :=
  inferInstanceAs (Decidable (_ → _))

/-- The precedence of the writes, the last one first. -/
theorem summarize_eq (hne : tasks ≠ []) :
    (summarize seqName seqId tasks).1
      = if Shows tasks .expired ∧ ¬ HasFailed tasks then .expired
        else if Shows tasks .canceled then .canceled
        else if HasFailed tasks then .failed
        else if Shows tasks .running ∨ Shows tasks .completed ∧ Shows tasks .idle then .running
        else if ∀ t ∈ tasks, t.status = .idle then .idle
        else if ∀ t ∈ tasks, t.status = .completed then .completed
        else .unknown := by
  have hany : ∀ status : TaskStatus,
      (tasks.map Task.status).any (· == status) = decide (Shows tasks status) := by
    intro status
    rw [Bool.eq_iff_iff, decide_eq_true_iff]
    simp [Shows]
  have hfailed : (tasks.map Task.status).any (fun status => status == .aborted || status == .failed)
      = decide (HasFailed tasks) := by
    rw [Bool.eq_iff_iff, decide_eq_true_iff]
    simp only [List.any_map, List.any_eq_true, Function.comp_apply, Bool.or_eq_true, beq_iff_eq,
      HasFailed, Shows]
    exact ⟨fun ⟨t, ht, h⟩ => h.symm.imp (fun h => ⟨t, ht, h⟩) fun h => ⟨t, ht, h⟩,
      fun h => h.elim (fun ⟨t, ht, h⟩ => ⟨t, ht, .inr h⟩) fun ⟨t, ht, h⟩ => ⟨t, ht, .inl h⟩⟩
  have hall : ∀ status : TaskStatus,
      (tasks.map Task.status).all (· == status) = decide (∀ t ∈ tasks, t.status = status) := by
    intro status
    rw [Bool.eq_iff_iff, decide_eq_true_iff]
    simp
  have hempty : (tasks.map Task.status).isEmpty = false := by simpa using hne
  simp only [summarize_fst, summaryStatus, hany, hfailed, hall, hempty, Bool.and_eq_true,
    Bool.or_eq_true, Bool.not_eq_true', decide_eq_true_eq, decide_eq_false_iff_not,
    Bool.false_eq_true, if_false]

theorem summarize_perm {tasks' : List Task} (hperm : tasks'.Perm tasks) :
    (summarize seqName seqId tasks').1 = (summarize seqName seqId tasks).1 := by
  rw [summarize_fst, summarize_fst, summaryStatus, summaryStatus]
  have hmap := hperm.map Task.status
  simp only [hmap.any_eq, hmap.all_eq, hmap.isEmpty_eq]

theorem summarize_eq_completed_iff (hne : tasks ≠ []) :
    (summarize seqName seqId tasks).1 = .completed ↔ ∀ t ∈ tasks, t.status = .completed := by
  rw [summarize_eq hne]
  constructor
  · intro h
    split_ifs at h with _ _ _ _ _ hall
    exact hall
  · intro hall
    have hshows : ∀ status, status ≠ .completed → ¬ Shows tasks status := by
      rintro status hstatus ⟨t, ht, rfl⟩
      exact hstatus (hall t ht)
    have hidle : ¬ ∀ t ∈ tasks, t.status = .idle := by
      obtain ⟨t, ht⟩ := List.exists_mem_of_ne_nil tasks hne
      intro h
      have := (h t ht).symm.trans (hall t ht)
      cases this
    have hfailed : ¬ HasFailed tasks := by
      rintro (h | h)
      · exact hshows _ (by decide) h
      · exact hshows _ (by decide) h
    rw [if_neg fun h => hshows .expired (by decide) h.1, if_neg (hshows .canceled (by decide)),
      if_neg hfailed, if_neg (by simp [hshows]), if_neg hidle, if_pos hall]

/-- **When the status of a sequence masks no task**: canceled tasks stand alone. -/
theorem neverMasks_iff_canceledAlone (seqName seqId : String) (tasks : List Task)
    (hne : tasks ≠ []) : NeverMasks seqName seqId tasks ↔ CanceledAlone tasks := by
  constructor
  · intro h hcanceled
    have hfailed : ¬ HasFailed tasks := by
      intro hfailed
      have hstatus := h.failed hfailed
      rw [summarize_eq hne, if_neg fun h => h.2 hfailed, if_pos hcanceled] at hstatus
      cases hstatus
    refine ⟨hfailed, fun hrunning => ?_⟩
    by_contra hexpired
    have hstatus := h.running hfailed hexpired hrunning
    rw [summarize_eq hne, if_neg fun h => hexpired h.1, if_pos hcanceled] at hstatus
    cases hstatus
  · intro halone
    refine ⟨fun tasks' => summarize_perm, summarize_eq_completed_iff hne, fun hfailed => ?_,
      fun hfailed hexpired => ?_, fun hfailed hexpired hrunning => ?_⟩
    · have hcanceled : ¬ Shows tasks .canceled := fun h => (halone h).1 hfailed
      rw [summarize_eq hne, if_neg fun h => h.2 hfailed, if_neg hcanceled, if_pos hfailed]
    · rw [summarize_eq hne, if_pos ⟨hexpired, hfailed⟩]
    · have hcanceled : ¬ Shows tasks .canceled := fun h => hexpired ((halone h).2 hrunning)
      rw [summarize_eq hne, if_neg fun h => hexpired h.1, if_neg hcanceled, if_neg hfailed,
        if_pos (.inl hrunning)]

def failedThenCanceled : List Task :=
  [(Task.create Clock.origin "t-1" "Slew" 0 false).setStatus .failed "",
    (Task.create Clock.origin "t-2" "Lock" 0 false).setStatus .canceled ""]

theorem not_neverMasks_failedThenCanceled :
    ¬ NeverMasks "pointing" "s-1" failedThenCanceled := by
  intro h
  have hstatus := h.failed (by decide)
  rw [summarize_eq (by decide)] at hstatus
  exact absurd hstatus (by decide)

theorem neverMasks_iff_canceledAlone_failedThenCanceled :
    NeverMasks "pointing" "s-1" failedThenCanceled ↔ CanceledAlone failedThenCanceled :=
  neverMasks_iff_canceledAlone "pointing" "s-1" failedThenCanceled (by decide)

end DshLmc
