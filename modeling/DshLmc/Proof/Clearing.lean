import DshLmc.Proof.Building
import DshLmc.Utils.TaskManager

/-!
# Clearing completed sequences

`ClearCompletedSequenceTasks` hands the status `COMPLETED` to the predicate for old sequences with
the filter inverted, as `ClearSequenceTasks` does with `RUNNING` to keep the running ones. So it
removes what is old and not completed.
-/

namespace DshLmc.TaskManager

variable {m : TaskManager} {now : Clock} {historyTimeThr : Int} {useUTC : Bool}

/-- The age of a sequence is at least the threshold, which is in seconds. -/
def IsOld (m : TaskManager) (now : Clock) (historyTimeThr : Int) (useUTC : Bool)
    (q : TaskSequencePtr) : Prop :=
  historyTimeThr * 1000000 ≤ now.current useUTC - (m.sequence q).creationTime

instance (m : TaskManager) (now : Clock) (historyTimeThr : Int) (useUTC : Bool) :
    DecidablePred (m.IsOld now historyTimeThr useUTC) := fun _ => inferInstanceAs (Decidable (_ ≤ _))

/-- The call removes the sequences that are completed and old, and keeps the others in their order. -/
def ClearsCompleted (m : TaskManager) (now : Clock) (historyTimeThr : Int) (useUTC : Bool) : Prop :=
  (m.clearCompletedSequenceTasks now historyTimeThr useUTC).2.taskSequences
    = m.taskSequences.filter fun q =>
        ¬ ((m.sequence q).status = .completed ∧ m.IsOld now historyTimeThr useUTC q)

theorem taskSequences_clearCompletedSequenceTasks :
    (m.clearCompletedSequenceTasks now historyTimeThr useUTC).2.taskSequences
      = m.taskSequences.filter fun q =>
          ¬ ((m.sequence q).status ≠ .completed ∧ m.IsOld now historyTimeThr useUTC q) := by
  refine List.filter_congr fun q _ => ?_
  rw [Bool.eq_iff_iff]
  simp only [matchOldSequenceTask, IsOld, Bool.not_true, Bool.false_and, Bool.true_and,
    Bool.false_or, Bool.not_eq_true', Bool.and_eq_false_iff, decide_eq_false_iff_not,
    decide_eq_true_eq, bne_eq_false_iff_eq, not_and, ne_eq]
  tauto

def oneNewSequence : TaskManager :=
  { create Heap.oneAsynchTask "DSH" with taskSequences := [0] }

end DshLmc.TaskManager
