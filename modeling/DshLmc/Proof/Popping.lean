import DshLmc.Proof.Methods

/-!
# Popping a task

`PopTask` first erases the tasks already marked `EXPIRED`, then walks the queue. On its way it marks
tasks that timed out, and it stops at the first one that may run. Marking can only take the
permission to run away, so a task passed over on the way is not runnable at the end either.
-/

namespace DshLmc

namespace TaskManager

/-- Some tasks became `EXPIRED` and nothing else changed. -/
structure Expiring (m m' : TaskManager) : Prop where
  objects : SameObjects m.toHeap m'.toHeap
  sequence : m'.sequence = m.sequence
  taskQueue : m'.taskQueue = m.taskQueue
  taskSequences : m'.taskSequences = m.taskSequences
  status : ∀ p, (m'.task p).status = (m.task p).status ∨ (m'.task p).status = .expired

namespace Expiring

variable {m m' m'' : TaskManager} {p : TaskPtr} {now : Clock}

theorem refl (m : TaskManager) : Expiring m m :=
  ⟨SameObjects.refl _, rfl, rfl, rfl, fun _ => Or.inl rfl⟩

theorem trans (h₁ : Expiring m m') (h₂ : Expiring m' m'') : Expiring m m'' where
  objects := h₁.objects.trans h₂.objects
  sequence := h₂.sequence.trans h₁.sequence
  taskQueue := h₂.taskQueue.trans h₁.taskQueue
  taskSequences := h₂.taskSequences.trans h₁.taskSequences
  status p := by
    obtain h | h := h₂.status p
    · rw [h]
      exact h₁.status p
    · exact Or.inr h

theorem expire (m : TaskManager) (p : TaskPtr) : Expiring m (m.expire p) where
  objects := sameObjects_setStatus
  sequence := rfl
  taskQueue := rfl
  taskSequences := rfl
  status p' := by
    rw [TaskManager.expire, TaskManager.onHeap, status_setStatus]
    split
    · exact Or.inr rfl
    · exact Or.inl rfl

theorem status_eq (h : Expiring m m') {status : TaskStatus} (hne : status ≠ .expired)
    (hs : (m'.task p).status = status) : (m.task p).status = status := by
  obtain heq | heq := h.status p
  · rw [← heq, hs]
  · exact absurd (hs.symm.trans heq) hne

theorem isDependencyCompleted (h : Expiring m m') {q : TaskSequencePtr} {index : Int}
    (hc : m'.isDependencyCompleted q index = true) : m.isDependencyCompleted q index = true := by
  unfold TaskManager.isDependencyCompleted at hc ⊢
  split at hc
  · simp at hc
  · rename_i hindex
    rw [h.sequence] at hc
    rw [if_neg hindex]
    split at hc
    · simp at hc
    · rename_i p hp
      simp only [beq_iff_eq] at hc ⊢
      exact h.status_eq (by decide) hc

theorem isSequenceTaskRunnable (h : Expiring m m') (hr : m'.isSequenceTaskRunnable p = true) :
    m.isSequenceTaskRunnable p = true := by
  have hfind : ∀ id name, m'.findTaskSequence id name = m.findTaskSequence id name := by
    intro id name
    simp only [findTaskSequence, h.taskSequences, h.sequence]
  unfold TaskManager.isSequenceTaskRunnable at hr ⊢
  simp only [h.objects.isInSequence, h.objects.dependOnSequenceTasks, h.objects.depTaskSeqIndexes,
    h.objects.sequenceId, h.objects.sequenceName, hfind] at hr
  cases hin : (m.task p).isInSequence with
  | false => simp [hin]
  | true =>
      by_cases hdep :
          (!(m.task p).dependOnSequenceTasks || (m.task p).depTaskSeqIndexes.isEmpty) = true
      · simp [hdep]
      · simp only [hin, hdep, Bool.not_true, Bool.false_eq_true, if_false] at hr ⊢
        split at hr
        · simp at hr
        · rename_i q hq
          simp only [List.all_eq_true] at hr ⊢
          exact fun index hindex => h.isDependencyCompleted (hr index hindex)

theorem isRunnable (h : Expiring m m') (hr : m'.isRunnable now p = true) :
    m.isRunnable now p = true := by
  simp only [TaskManager.isRunnable, Task.isRunnable, Bool.and_eq_true, beq_iff_eq,
    h.objects.isActivationReached, h.objects.isExpirationReached] at hr ⊢
  obtain ⟨⟨⟨hidle, hactive⟩, hexpired⟩, hsequence⟩ := hr
  exact ⟨⟨⟨h.status_eq (by decide) hidle, hactive⟩, hexpired⟩, h.isSequenceTaskRunnable hsequence⟩

end Expiring

variable {m m' : TaskManager} {p : TaskPtr} {now : Clock} {signals : Signals}

theorem expiring_scanQueue (now : Clock) (ps : List TaskPtr) (waiting : Option TaskPtr) (m : TaskManager) :
    Expiring m (scanQueue now ps waiting m).manager := by
  induction ps generalizing waiting m with
  | nil => exact Expiring.refl m
  | cons p rest ih =>
      simp only [scanQueue]
      split
      · exact Expiring.refl m
      · split
        · exact (Expiring.expire m p).trans (ih waiting (m.expire p))
        · split
          · exact ih (some p) m
          · exact ih waiting m

theorem status_scanQueue (now : Clock) (p : TaskPtr) (ps : List TaskPtr)
    (waiting : Option TaskPtr) (m : TaskManager) :
    ((scanQueue now ps waiting m).manager.task p).status = (m.task p).status
      ∨ p ∈ ps ∧ (m.task p).isExpirationReached now = true := by
  induction ps generalizing waiting m with
  | nil => exact Or.inl rfl
  | cons p₀ rest ih =>
      simp only [scanQueue]
      split
      · exact Or.inl rfl
      split
      · rename_i hexpired
        obtain hsame | ⟨hmem, hreached⟩ := ih waiting (m.expire p₀)
        · by_cases hp : p = p₀
          · exact Or.inr ⟨hp ▸ List.mem_cons_self, hp ▸ hexpired⟩
          · left
            rw [hsame, TaskManager.expire, TaskManager.onHeap, status_setStatus, if_neg hp]
        · rw [(Expiring.expire m p₀).objects.isExpirationReached] at hreached
          exact Or.inr ⟨List.mem_cons_of_mem _ hmem, hreached⟩
      · have hrest : ∀ waiting, ((scanQueue now rest waiting m).manager.task p).status
            = (m.task p).status ∨ p ∈ p₀ :: rest ∧ (m.task p).isExpirationReached now = true :=
          fun waiting => (ih waiting m).imp_right fun h => ⟨List.mem_cons_of_mem _ h.1, h.2⟩
        split
        · exact hrest (some p₀)
        · exact hrest waiting

/-- **The walk** stops at the first task that may run. -/
theorem scanQueue_runnable {ps : List TaskPtr} {waiting : Option TaskPtr}
    (hp : (scanQueue now ps waiting m).runnable = some p) :
    ∃ front back, ps = front ++ p :: back
      ∧ (scanQueue now ps waiting m).manager.isRunnable now p = true
      ∧ ∀ p' ∈ front, (scanQueue now ps waiting m).manager.isRunnable now p' = false := by
  induction ps generalizing waiting m with
  | nil => simp [scanQueue] at hp
  | cons p₀ rest ih =>
      by_cases hrun : m.isRunnable now p₀ = true
      · simp only [scanQueue, hrun, if_true, Option.some.injEq] at hp ⊢
        subst hp
        exact ⟨[], rest, rfl, hrun, by simp⟩
      · -- What follows the head is a walk of the rest, in a manager reached by marking.
        have hwalk : ∃ w m', Expiring m m'
            ∧ scanQueue now (p₀ :: rest) waiting m = scanQueue now rest w m' := by
          simp only [scanQueue, hrun, Bool.false_eq_true, if_false]
          split
          · exact ⟨_, _, Expiring.expire m p₀, rfl⟩
          · split
            · exact ⟨_, _, Expiring.refl m, rfl⟩
            · exact ⟨_, _, Expiring.refl m, rfl⟩
        obtain ⟨w, m', hm', heq⟩ := hwalk
        rw [heq] at hp ⊢
        obtain ⟨front, back, rfl, hrunnable, hfront⟩ := ih hp
        refine ⟨p₀ :: front, back, rfl, hrunnable, fun p' hp' => ?_⟩
        obtain rfl | hp' := List.mem_cons.mp hp'
        · rw [← Bool.not_eq_true]
          exact fun habs => hrun ((hm'.trans (expiring_scanQueue _ _ _ _)).isRunnable habs)
        · exact hfront p' hp'

/-- **PopTask** leaves the manager alone, or ends without a task after marking some, or takes the
first task that may run. -/
theorem popTask_cases (now : Clock) (signals : Signals) (m : TaskManager) :
    (∃ outcome signals', (outcome = .waiting ∨ outcome = .failed)
        ∧ m.popTask now signals = (outcome, signals', m))
      ∨ ∃ m', Expiring (m.removeInQueue (matchTaskByStatus .expired)) m' ∧
        ((∃ outcome signals', (outcome = .failed ∨ ∃ time, outcome = .sleeping time)
            ∧ m.popTask now signals = (outcome, signals', m'))
          ∨ ∃ p front back signals',
            (m.removeInQueue (matchTaskByStatus .expired)).taskQueue = front ++ p :: back
              ∧ m'.isRunnable now p = true ∧ (∀ p' ∈ front, m'.isRunnable now p' = false)
              ∧ m.popTask now signals = (.popped (m'.task p), signals',
                { m' with taskQueue := m'.taskQueue.erase p })) := by
  unfold popTask
  split
  · exact Or.inl ⟨_, _, Or.inl rfl, rfl⟩
  dsimp only
  split
  · exact Or.inl ⟨_, _, Or.inr rfl, rfl⟩
  split
  · exact Or.inl ⟨_, _, Or.inr rfl, rfl⟩
  right
  have hexpiring := expiring_scanQueue now
    (m.removeInQueue (matchTaskByStatus .expired)).taskQueue none
    (m.removeInQueue (matchTaskByStatus .expired))
  refine ⟨_, hexpiring, ?_⟩
  split
  · rename_i _ p hp
    obtain ⟨front, back, hqueue, hrun, hfront⟩ := scanQueue_runnable hp
    exact Or.inr ⟨p, front, back, _, hqueue, hrun, hfront, rfl⟩
  · exact Or.inl ⟨_, _, Or.inr ⟨_, rfl⟩, rfl⟩
  · exact Or.inl ⟨_, _, Or.inl rfl, rfl⟩

theorem sequence_popTask (now : Clock) (signals : Signals) (m : TaskManager) :
    (m.popTask now signals).2.2.sequence = m.sequence := by
  obtain ⟨outcome, signals', -, heq⟩ | ⟨m', hm', ⟨outcome, signals', -, heq⟩
    | ⟨p, front, back, signals', -, -, -, heq⟩⟩ := m.popTask_cases now signals
  · rw [heq]
  · rw [heq]
    exact hm'.sequence
  · rw [heq]
    exact hm'.sequence

theorem status_popTask (now : Clock) (signals : Signals) (p : TaskPtr) (m : TaskManager) :
    ((m.popTask now signals).2.2.task p).status = (m.task p).status
      ∨ signals.endSignal = false ∧ p ∈ m.taskQueue
        ∧ (m.task p).isExpirationReached now = true := by
  unfold popTask
  split
  · exact Or.inl rfl
  dsimp only
  split
  · exact Or.inl rfl
  rename_i hend
  split
  · exact Or.inl rfl
  have hscan := status_scanQueue now p
    (m.removeInQueue (matchTaskByStatus .expired)).taskQueue none
    (m.removeInQueue (matchTaskByStatus .expired))
  refine Or.imp ?_ (fun h => ⟨by simpa using hend, List.mem_of_mem_filter h.1, h.2⟩) hscan
  intro hsame
  split <;> exact hsame

end TaskManager

end DshLmc
