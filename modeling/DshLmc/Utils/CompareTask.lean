import Mathlib.Data.Prod.Lex
import Mathlib.Order.WithBot
import DshLmc.Library.OverriddenOrder
import DshLmc.Utils.Task

/-!
# The comparator of the task queue

`CompareTask` orders two tasks of the queue. Direct dependencies between tasks of one sequence come
first. Otherwise the time at which the two are expected to start decides, then the priority, the
expiration time, the name and the identifier. `compareTask_eq_overrideLt` puts this in the form of
the library: a lexicographic key, overridden by the direct dependencies.
-/

namespace DshLmc

/-- The comparison by start time. `none` means that it does not decide. -/
def compareActivation (t₁ t₂ : Task) : Option Bool :=
  if t₁.dependOnSequenceTasks && !t₂.dependOnSequenceTasks then
    if !t₂.hasActivationTime then some false
    else if t₁.expMaxActivationTime ≠ t₂.activationTime then
      some (decide (t₁.expMaxActivationTime < t₂.activationTime))
    else none
  else if t₂.dependOnSequenceTasks && !t₁.dependOnSequenceTasks then
    if !t₁.hasActivationTime then some true
    else if t₁.activationTime ≠ t₂.expMaxActivationTime then
      some (decide (t₁.activationTime < t₂.expMaxActivationTime))
    else none
  else if t₁.dependOnSequenceTasks && t₂.dependOnSequenceTasks then
    if t₁.expMaxActivationTime ≠ t₂.expMaxActivationTime then
      some (decide (t₁.expMaxActivationTime < t₂.expMaxActivationTime))
    else none
  else
    if !t₁.hasActivationTime && t₂.hasActivationTime then some true
    else if !t₂.hasActivationTime && t₁.hasActivationTime then some false
    else if t₁.hasActivationTime && t₂.hasActivationTime
        && decide (t₁.activationTime ≠ t₂.activationTime) then
      some (decide (t₁.activationTime < t₂.activationTime))
    else none

/-- `std::tie(cmd_name,id) < std::tie(cmd_name,id)`. -/
def compareByNameAndId (t₁ t₂ : Task) : Bool :=
  decide (t₁.cmdName < t₂.cmdName)
    || (!decide (t₂.cmdName < t₁.cmdName) && decide (t₁.id < t₂.id))

/-- What is compared when start times do not decide. -/
def compareByPriority (t₁ t₂ : Task) : Bool :=
  if t₁.priority ≠ t₂.priority then decide (t₁.priority > t₂.priority)
  else if t₁.expirationTime ≠ t₂.expirationTime then
    decide (t₁.expirationTime < t₂.expirationTime)
  else compareByNameAndId t₁ t₂

def areInSameSequence (t₁ t₂ : Task) : Bool :=
  (t₁.isInSequence && t₂.isInSequence)
    && t₁.sequenceId == t₂.sequenceId && t₁.sequenceName == t₂.sequenceName

/-- `CompareTask::comparatorFcn`. -/
def compareTask (t₁ t₂ : Task) : Bool :=
  if areInSameSequence t₁ t₂ && t₁.dependOnTask t₂ then false
  else if areInSameSequence t₁ t₂ && t₂.dependOnTask t₁ then true
  else
    match compareActivation t₁ t₂ with
    | some less => less
    | none => compareByPriority t₁ t₂

/-- The comparator reads nothing that a status write changes. -/
theorem compareTask_fixed (t₁ t₂ : Task) : compareTask t₁.fixed t₂.fixed = compareTask t₁ t₂ := rfl

/-- `a` depends directly on `b`, in the sequence of both. -/
def dependsDirectly (a b : Task) : Bool := areInSameSequence a b && a.dependOnTask b

/-- When a task is expected to start. Without an activation time and without dependencies it can
start at once. -/
def Task.expectedStart (t : Task) : WithBot Time :=
  if t.dependOnSequenceTasks then t.expMaxActivationTime
  else if t.hasActivationTime then t.activationTime
  else ⊥

/-- Start, priority (highest first), expiration, name and identifier, lexicographically. -/
abbrev TaskKey := WithBot Time ×ₗ Int ×ₗ Time ×ₗ String ×ₗ String

def Task.key (t : Task) : TaskKey :=
  toLex (t.expectedStart, toLex (-t.priority, toLex (t.expirationTime, toLex (t.cmdName, t.id))))

theorem areInSameSequence_comm (t₁ t₂ : Task) :
    areInSameSequence t₁ t₂ = areInSameSequence t₂ t₁ := by
  simp only [areInSameSequence, Bool.and_comm t₁.isInSequence, BEq.comm (a := t₁.sequenceId),
    BEq.comm (a := t₁.sequenceName)]

theorem Task.key_injective_of_id {t₁ t₂ : Task} (h : t₁.key = t₂.key) : t₁.id = t₂.id := by
  simp only [Task.key, toLex_inj, Prod.mk.injEq] at h
  exact h.2.2.2.2

/-- The comparison of two values. It does not decide between equal ones. -/
def compareValues {κ : Type} [LinearOrder κ] (a b : κ) : Option Bool :=
  if a = b then none else some (decide (a < b))

theorem compareActivation_eq (t₁ t₂ : Task) :
    compareActivation t₁ t₂ = compareValues t₁.expectedStart t₂.expectedStart := by
  unfold compareActivation compareValues Task.expectedStart
  cases t₁.dependOnSequenceTasks <;> cases t₂.dependOnSequenceTasks <;>
    cases t₁.hasActivationTime <;> cases t₂.hasActivationTime <;>
    simp [WithBot.coe_inj, WithBot.bot_lt_coe]

theorem compareByNameAndId_eq (t₁ t₂ : Task) :
    compareByNameAndId t₁ t₂ = decide (toLex (t₁.cmdName, t₁.id) < toLex (t₂.cmdName, t₂.id)) := by
  rw [Bool.eq_iff_iff, decide_eq_true_iff, Prod.Lex.toLex_lt_toLex, compareByNameAndId]
  obtain h | h | h := lt_trichotomy t₁.cmdName t₂.cmdName
  · simp [h]
  · simp [h]
  · simp [h, not_lt_of_gt h, ne_of_gt h]

theorem compareByPriority_eq (t₁ t₂ : Task) :
    compareByPriority t₁ t₂ =
      decide (toLex (-t₁.priority, toLex (t₁.expirationTime, toLex (t₁.cmdName, t₁.id)))
        < toLex (-t₂.priority, toLex (t₂.expirationTime, toLex (t₂.cmdName, t₂.id)))) := by
  rw [Bool.eq_iff_iff, decide_eq_true_iff, Prod.Lex.toLex_lt_toLex, Prod.Lex.toLex_lt_toLex,
    compareByPriority]
  by_cases hp : t₁.priority = t₂.priority
  · by_cases he : t₁.expirationTime = t₂.expirationTime
    · simp [hp, he, compareByNameAndId_eq]
    · simp [hp, he]
  · simp [hp]

/-- **The comparator** is the order by key, overridden by the direct dependencies. -/
theorem compareTask_eq_overrideLt (t₁ t₂ : Task) :
    compareTask t₁ t₂ = overrideLt dependsDirectly Task.key t₁ t₂ := by
  have hkey : (match compareActivation t₁ t₂ with
      | some less => less
      | none => compareByPriority t₁ t₂) = decide (t₁.key < t₂.key) := by
    rw [compareActivation_eq, compareByPriority_eq, compareValues]
    by_cases hs : t₁.expectedStart = t₂.expectedStart
    · simp only [hs, if_true, Task.key, Prod.Lex.toLex_lt_toLex (x := (t₂.expectedStart, _)),
        lt_irrefl, true_and, false_or]
    · simp [hs, Task.key, Prod.Lex.toLex_lt_toLex (x := (t₁.expectedStart, _))]
  simp only [compareTask, overrideLt, dependsDirectly, areInSameSequence_comm t₂ t₁]
  rw [hkey]

end DshLmc
