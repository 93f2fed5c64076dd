import DshLmc.Proof.Dependencies
import DshLmc.Utils.TaskManager

/-!
# The order of the queue

`CompareTask` is the order by expected start, priority, expiration, name and identifier, overridden
by the direct dependencies. It is an order of a set of tasks exactly when the dependencies agree with
the keys in the sense of `ExceptionsAgree`. Nothing in the building of sequences makes them agree: a
task that takes no time may be expected to start when the task that waits for it does, and then the
priorities can place a third task between the two.
-/

namespace DshLmc

/-- The first task depends directly on the second. -/
def Heap.dependsDirectly (h : Heap) (p p' : TaskPtr) : Bool :=
  DshLmc.dependsDirectly (h.task p) (h.task p')

/-- The key the tasks are ordered by when no direct dependency decides. -/
def Heap.key (h : Heap) (p : TaskPtr) : TaskKey := (h.task p).key

section

variable {h : Heap} {ps : List TaskPtr}

theorem Heap.less_eq_overrideLt (h : Heap) : h.less = overrideLt h.dependsDirectly h.key := by
  funext p p'
  exact compareTask_eq_overrideLt (h.task p) (h.task p')

theorem Heap.key_injOn (hids : (ps.map fun p => (h.task p).id).Nodup) :
    ∀ p ∈ ps, ∀ p' ∈ ps, h.key p = h.key p' → p = p' := fun _ hp _ hp' heq =>
  List.inj_on_of_nodup_map hids hp hp' (Task.key_injective_of_id heq)

/-- **When the comparator orders the queue.** For tasks with distinct identifiers, the dependencies
have to agree with the keys. -/
theorem setSound_less_iff (hids : (ps.map fun p => (h.task p).id).Nodup) :
    SetSound h.less h.dependsDirectly ps ↔ ExceptionsAgree h.dependsDirectly h.key ps := by
  rw [Heap.less_eq_overrideLt]
  exact setSound_overrideLt_iff hids.of_map (Heap.key_injOn hids)

end

def instantTask (id name : String) (priorityLevel : Int) : Task :=
  ((Task.create Clock.origin id name priorityLevel false).setTimeDelayAndDuration Clock.origin
    10000 0 0 0).2

def threeTasks : Heap :=
  (Heap.blank.buildSequence 0 (TaskSequence.create Clock.origin "s-1" "observe" false)
      [(0, instantTask "t-1" "Slew" 0),
        (1, Task.create Clock.origin "t-2" "Track" 2 false)]).buildSequence 1
    (TaskSequence.create Clock.origin "s-2" "park" false) [(2, instantTask "t-3" "Stow" 1)]

def circle : Heap := threeTasks.withDependency Clock.origin 0 [[], [0]]

/-- By priority the second precedes the third and the third the first, which the second waits for. -/
theorem not_setSound_circle :
    threeTasks.setTaskDependency Clock.origin 0 [[], [0]] = .ok (0, circle)
      ∧ (([0, 1, 2] : List TaskPtr).map fun p => (circle.task p).id).Nodup
      ∧ ¬ SetSound circle.less circle.dependsDirectly [0, 1, 2] := by
  refine ⟨rfl, by decide, fun hsound => ?_⟩
  have htrans := hsound.weakOrder.trans 0 (by decide) 1 (by decide) 2 (by decide) (by decide)
    (by decide)
  exact absurd htrans (by decide)

/-- The theorem at the two tasks of the sequence, whose dependency is against their keys. -/
theorem setSound_less_iff_circle :
    SetSound circle.less circle.dependsDirectly [0, 1]
      ↔ ExceptionsAgree circle.dependsDirectly circle.key [0, 1] :=
  setSound_less_iff (by decide)

end DshLmc
