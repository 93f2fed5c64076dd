import DshLmc.Core.TaskThread
import DshLmc.Library.Fold

/-!
# What the manager changes in the shared objects

No method of the manager builds or reshapes a task or a sequence. The only things it writes behind
a pointer are the status of a task and the status of a sequence. `SameObjects` says so of two heaps.
Everything a lookup, a comparison or a dependency check depends on besides statuses is therefore
the same before and after, and each method is described by what it does to the two containers and
to the status of each task.
-/

namespace DshLmc

theorem Task.id_of_fixed {t t' : Task} (h : t.fixed = t'.fixed) : t.id = t'.id :=
  (congrArg Task.id h : t.fixed.id = t'.fixed.id)

def TaskSequence.fixed (seq : TaskSequence) : TaskSequence :=
  { seq with status := .init, statusInfo := "" }

structure SameObjects (h h' : Heap) : Prop where
  task : ∀ p, (h'.task p).fixed = (h.task p).fixed
  sequence : ∀ q, (h'.sequence q).fixed = (h.sequence q).fixed

namespace SameObjects

variable {h h' h'' : Heap} {p : TaskPtr} {q : TaskSequencePtr}

theorem refl (h : Heap) : SameObjects h h := ⟨fun _ => rfl, fun _ => rfl⟩

theorem trans (h₁ : SameObjects h h') (h₂ : SameObjects h' h'') : SameObjects h h'' :=
  ⟨fun p => (h₂.task p).trans (h₁.task p), fun q => (h₂.sequence q).trans (h₁.sequence q)⟩

theorem read {β : Type*} (hs : SameObjects h h') (f : Task → β) (hf : ∀ t, f t.fixed = f t) :
    f (h'.task p) = f (h.task p) := by
  rw [← hf, hs.task p, hf]

theorem readSequence {β : Type*} (hs : SameObjects h h') (f : TaskSequence → β)
    (hf : ∀ seq, f seq.fixed = f seq) : f (h'.sequence q) = f (h.sequence q) := by
  rw [← hf, hs.sequence q, hf]

theorem id (hs : SameObjects h h') : (h'.task p).id = (h.task p).id :=
  hs.read Task.id fun _ => rfl

theorem cmdName (hs : SameObjects h h') : (h'.task p).cmdName = (h.task p).cmdName :=
  hs.read Task.cmdName fun _ => rfl

theorem isInSequence (hs : SameObjects h h') :
    (h'.task p).isInSequence = (h.task p).isInSequence :=
  hs.read Task.isInSequence fun _ => rfl

theorem sequenceId (hs : SameObjects h h') : (h'.task p).sequenceId = (h.task p).sequenceId :=
  hs.read Task.sequenceId fun _ => rfl

theorem sequenceName (hs : SameObjects h h') :
    (h'.task p).sequenceName = (h.task p).sequenceName :=
  hs.read Task.sequenceName fun _ => rfl

theorem dependOnSequenceTasks (hs : SameObjects h h') :
    (h'.task p).dependOnSequenceTasks = (h.task p).dependOnSequenceTasks :=
  hs.read Task.dependOnSequenceTasks fun _ => rfl

theorem depTaskSeqIndexes (hs : SameObjects h h') :
    (h'.task p).depTaskSeqIndexes = (h.task p).depTaskSeqIndexes :=
  hs.read Task.depTaskSeqIndexes fun _ => rfl

theorem isAsynch (hs : SameObjects h h') : (h'.task p).isAsynch = (h.task p).isAsynch :=
  hs.read Task.isAsynch fun _ => rfl

theorem statusAttrName (hs : SameObjects h h') :
    (h'.task p).statusAttrName = (h.task p).statusAttrName :=
  hs.read Task.statusAttrName fun _ => rfl

theorem isActivationReached (hs : SameObjects h h') (now : Clock) :
    (h'.task p).isActivationReached now = (h.task p).isActivationReached now :=
  hs.read (Task.isActivationReached now) fun _ => rfl

theorem isExpirationReached (hs : SameObjects h h') (now : Clock) :
    (h'.task p).isExpirationReached now = (h.task p).isExpirationReached now :=
  hs.read (Task.isExpirationReached now) fun _ => rfl

theorem isWaitingForActivation (hs : SameObjects h h') (now : Clock) :
    (h'.task p).isWaitingForActivation now = (h.task p).isWaitingForActivation now :=
  hs.read (Task.isWaitingForActivation now) fun _ => rfl

theorem activationTimeout (hs : SameObjects h h') :
    (h'.task p).activationTimeout = (h.task p).activationTimeout :=
  hs.read Task.activationTimeout fun _ => rfl

theorem matchAsynchTask (hs : SameObjects h h') (attrName : String) :
    Heap.matchAsynchTask attrName (h'.task p) = Heap.matchAsynchTask attrName (h.task p) :=
  hs.read (Heap.matchAsynchTask attrName) fun _ => rfl

theorem tasks (hs : SameObjects h h') : (h'.sequence q).tasks = (h.sequence q).tasks :=
  hs.readSequence TaskSequence.tasks fun _ => rfl

theorem seqName (hs : SameObjects h h') : (h'.sequence q).seqName = (h.sequence q).seqName :=
  hs.readSequence TaskSequence.seqName fun _ => rfl

theorem seqId (hs : SameObjects h h') : (h'.sequence q).seqId = (h.sequence q).seqId :=
  hs.readSequence TaskSequence.seqId fun _ => rfl

theorem dependencyMatrix (hs : SameObjects h h') :
    (h'.sequence q).dependencyMatrix = (h.sequence q).dependencyMatrix :=
  hs.readSequence TaskSequence.dependencyMatrix fun _ => rfl

theorem findTask (hs : SameObjects h h') (id name : String) :
    h'.findTask q id name = h.findTask q id name := by
  simp only [Heap.findTask, hs.tasks, hs.id, hs.cmdName]

theorem findAsynchTask (hs : SameObjects h h') (attrName : String) :
    h'.findAsynchTask q attrName = h.findAsynchTask q attrName := by
  simp only [Heap.findAsynchTask, hs.tasks, hs.matchAsynchTask]

theorem compareTask (hs : SameObjects h h') (p p' : TaskPtr) :
    DshLmc.compareTask (h'.task p) (h'.task p') = DshLmc.compareTask (h.task p) (h.task p') := by
  rw [← compareTask_fixed, hs.task p, hs.task p', compareTask_fixed]

end SameObjects

section Writes

variable {h : Heap} {p p' : TaskPtr} {q q' : TaskSequencePtr} {status : TaskStatus} {info : String}

theorem status_setStatus :
    ((h.setStatus p status info).task p').status
      = if p' = p then status else (h.task p').status := by
  by_cases hp : p' = p
  · subst hp
    simp [Heap.setStatus, Heap.updateTask]
  · simp [Heap.setStatus, Heap.updateTask, hp]

theorem sameObjects_updateTask (change : Task → Task) (hfixed : ∀ t, (change t).fixed = t.fixed) :
    SameObjects h (h.updateTask p change) := by
  refine ⟨fun p' => ?_, fun _ => rfl⟩
  by_cases hp : p' = p
  · subst hp
    simp [Heap.updateTask, hfixed]
  · simp [Heap.updateTask, hp]

theorem sameObjects_setStatus : SameObjects h (h.setStatus p status info) :=
  sameObjects_updateTask _ fun _ => rfl

theorem sameObjects_computeStatus : SameObjects h (h.computeStatus q) := by
  refine ⟨fun _ => rfl, fun q' => ?_⟩
  by_cases hq : q' = q
  · subst hq
    simp [Heap.computeStatus, Heap.updateSequence, TaskSequence.fixed]
  · simp [Heap.computeStatus, Heap.updateSequence, hq]

@[simp]
theorem task_computeStatus : (h.computeStatus q).task = h.task := rfl

theorem status_computeStatus :
    ((h.computeStatus q).sequence q').status
      = if q' = q then (h.summary q).1 else (h.sequence q').status := by
  by_cases hq : q' = q
  · subst hq
    simp [Heap.computeStatus, Heap.updateSequence]
  · simp [Heap.computeStatus, Heap.updateSequence, hq]

end Writes

namespace TaskManager

variable {h₀ h : Heap} {p : TaskPtr} {q : TaskSequencePtr} {status : TaskStatus} {info : String}
  {id name attrName : String} {qs : List TaskSequencePtr}

theorem sameObjects_setStatusInSequence :
    SameObjects h (setStatusInSequence id name status info h q) := by
  unfold setStatusInSequence
  split
  · exact SameObjects.refl h
  · split
    · exact sameObjects_setStatus.trans sameObjects_computeStatus
    · exact sameObjects_setStatus

theorem status_setStatusInSequence :
    ((setStatusInSequence id name status info h q).task p).status
      = if h.findTask q id name = some p then status else (h.task p).status := by
  unfold setStatusInSequence
  cases hfind : h.findTask q id name with
  | none => simp
  | some found =>
      have hcond : (some found = some p) ↔ p = found := by simp [eq_comm]
      simp only [hcond]
      split <;> simp [status_setStatus]

theorem sameObjects_setAsynchTaskStatus :
    SameObjects h (h.setAsynchTaskStatus attrName status info q) := by
  unfold Heap.setAsynchTaskStatus
  split
  · exact SameObjects.refl h
  · exact sameObjects_setStatus.trans sameObjects_computeStatus

theorem status_setAsynchTaskStatus :
    ((h.setAsynchTaskStatus attrName status info q).task p).status
      = if h.findAsynchTask q attrName = some p then status else (h.task p).status := by
  unfold Heap.setAsynchTaskStatus
  cases hfind : h.findAsynchTask q attrName with
  | none => simp
  | some found =>
      have hcond : (some found = some p) ↔ p = found := by simp [eq_comm]
      simp [hcond, status_setStatus]

theorem sameObjects_cancelTasks {selected : Task → Bool} {ps : List TaskPtr} :
    SameObjects h (cancelTasks selected ps h).2 := by
  induction ps generalizing h with
  | nil => exact SameObjects.refl h
  | cons p rest ih =>
      simp only [cancelTasks]
      split
      · exact ih
      · exact sameObjects_setStatus.trans ih

theorem status_cancelTasks {selected : Task → Bool} {ps : List TaskPtr} :
    ((cancelTasks selected ps h).2.task p).status
      = if p ∈ ps ∧ (h.task p).status = .idle ∧ selected (h.task p) = true then .canceled
        else (h.task p).status := by
  induction ps generalizing h with
  | nil => simp [cancelTasks]
  | cons p' rest ih =>
      simp only [cancelTasks]
      by_cases hskip : (h.task p').status ≠ .idle ∨ selected (h.task p') = false
      · simp only [hskip, if_true, ih]
        by_cases hp : p = p'
        · -- The head is left alone, and so is its later occurrence.
          subst hp
          have hnot : ¬ ((h.task p).status = .idle ∧ selected (h.task p) = true) := by
            rintro ⟨hidle, hselected⟩
            obtain hne | hfalse := hskip
            · exact hne hidle
            · simp [hselected] at hfalse
          simp [hnot]
        · simp [hp]
      · simp only [hskip, if_false, ih, status_setStatus]
        push Not at hskip
        by_cases hp : p = p'
        · subst hp
          simp [hskip.1, hskip.2]
        · simp [hp, Heap.setStatus, Heap.updateTask]

theorem cancelTasks_eq_self {selected : Task → Bool} {ps : List TaskPtr}
    (hnone : (cancelTasks selected ps h).1 = false) : (cancelTasks selected ps h).2 = h := by
  induction ps generalizing h with
  | nil => rfl
  | cons p rest ih =>
      by_cases hskip : (h.task p).status ≠ .idle ∨ selected (h.task p) = false
      · simp only [cancelTasks, hskip, if_true] at hnone ⊢
        exact ih hnone
      · simp [cancelTasks, hskip] at hnone

theorem sameObjects_cancelInSequence {selected : Task → Bool} :
    SameObjects h (cancelInSequence selected h q) := by
  have hcancel : SameObjects h (cancelTasks selected (h.sequence q).tasks h).2 :=
    sameObjects_cancelTasks
  unfold cancelInSequence
  split <;> rename_i heq <;> rw [heq] at hcancel
  · exact hcancel.trans sameObjects_computeStatus
  · exact hcancel

theorem status_cancelInSequence {selected : Task → Bool} :
    ((cancelInSequence selected h q).task p).status
      = if p ∈ (h.sequence q).tasks ∧ (h.task p).status = .idle ∧ selected (h.task p) = true
        then .canceled else (h.task p).status := by
  have hcancel : ((cancelTasks selected (h.sequence q).tasks h).2.task p).status = _ :=
    status_cancelTasks
  unfold cancelInSequence
  split <;> rename_i heq <;> rw [heq] at hcancel
  · simpa using hcancel
  · exact hcancel

end TaskManager

end DshLmc
