import DshLmc.Proof.ExpectedTimes

/-!
# A second dependency matrix

A second accepted matrix replaces the rows of the first one in the tasks, and the times are computed
again. What is never taken back is that a task depends on others: a task whose row is empty now keeps
the mark of a row that was not.
-/

namespace DshLmc.Heap

variable {h h₁ h₂ h' : Heap} {now : Clock} {q : TaskSequencePtr} {p : TaskPtr} {i : Nat}
  {tasks : List TaskPtr} {row : List Nat} {first second : List (List Nat)}

/-- The same dependencies and expected times in two heaps, for a matrix. -/
structure SameDependencies (h h' : Heap) (tasks : List TaskPtr) (depMatrix : List (List Nat)) :
    Prop where
  depends : ∀ p ∈ tasks, (h.task p).dependOnSequenceTasks = (h'.task p).dependOnSequenceTasks
  indexes : ∀ p ∈ tasks, (h.task p).depTaskSeqIndexes = (h'.task p).depTaskSeqIndexes
  activation : ∀ (i : Nat) p row, tasks[i]? = some p → depMatrix[i]? = some row → row ≠ [] →
    (h.task p).expMaxActivationTime = (h'.task p).expMaxActivationTime
  expiration : ∀ p ∈ tasks, (h.task p).expMaxExpirationTime = (h'.task p).expMaxExpirationTime

theorem accepted_again (hfirst : h.setTaskDependency now q first = .ok (0, h₁))
    (hnodup : (h.sequence q).tasks.Nodup)
    (hsecond : h.setTaskDependency now q second = .ok (0, h₂)) :
    (h₁.sequence q).tasks = (h.sequence q).tasks
      ∧ ∃ h', h₁.setTaskDependency now q second = .ok (0, h') := by
  have htasks : (h₁.sequence q).tasks = (h.sequence q).tasks :=
    (samePlaces_setTaskDependency hnodup hfirst).tasks q
  obtain ⟨hne, hlength, hclean⟩ := clean_of_accepted hsecond
  obtain ⟨-, -, h', -, -, -, -, hset⟩ := @setTaskDependency_of_clean h₁ now q second hne
    (htasks ▸ hlength) (htasks ▸ hclean)
  exact ⟨htasks, h', hset⟩

theorem worstEnd_eq {t t' : Task} (hdepends : t.dependOnSequenceTasks = t'.dependOnSequenceTasks)
    (hfree : t'.dependOnSequenceTasks = false → t.expirationTime = t'.expirationTime)
    (hexpected : t'.dependOnSequenceTasks = true → t.expMaxExpirationTime = t'.expMaxExpirationTime) :
    t.worstEnd = t'.worstEnd := by
  rw [Task.worstEnd, Task.worstEnd, hdepends]
  cases hflag : t'.dependOnSequenceTasks with
  | false => exact hfree hflag
  | true => exact hexpected hflag

/-- The expected times follow from the own times of a task and the ends of those it depends on. -/
theorem Expected.unique {t t' : Task} (ht : h.Expected tasks t) (ht' : h'.Expected tasks t')
    (hown : t.ownTimes = t'.ownTimes) (hindexes : t.depTaskSeqIndexes = t'.depTaskSeqIndexes)
    (hends : ∀ d ∈ t.depTaskSeqIndexes, ∀ p, tasks[d.toNat]? = some p →
      (h.task p).worstEnd = (h'.task p).worstEnd) :
    t.expMaxActivationTime = t'.expMaxActivationTime
      ∧ t.expMaxExpirationTime = t'.expMaxExpirationTime := by
  simp only [Task.ownTimes, Prod.mk.injEq] at hown
  obtain ⟨hactive, hactivation, hduration⟩ := hown
  have hbounds : h.startBounds tasks t = h'.startBounds tasks t' := by
    ext a
    simp only [startBounds, Set.mem_ofPred_eq, hactive, hactivation, ← hindexes]
    refine or_congr_right (or_congr_right (exists_congr fun d => and_congr_right fun hd => ?_))
    exact exists_congr fun p => and_congr_right fun hp => by rw [hends d hd p hp]
  have hstart : t.expMaxActivationTime = t'.expMaxActivationTime :=
    ht.activation.unique (hbounds ▸ ht'.activation)
  exact ⟨hstart, by rw [ht.expiration, ht'.expiration, hstart, hduration]⟩

/-- **The times of two accepted calls** with one matrix agree when the tasks agree before. -/
theorem expMax_eq_of_accepted {h₀ h₀' : Heap} (hnodup : (h₀.sequence q).tasks.Nodup)
    (htasks : (h₀'.sequence q).tasks = (h₀.sequence q).tasks)
    (hset : h₀.setTaskDependency now q second = .ok (0, h))
    (hset' : h₀'.setTaskDependency now q second = .ok (0, h'))
    (hown : ∀ p ∈ (h₀.sequence q).tasks, (h₀.task p).ownTimes = (h₀'.task p).ownTimes)
    (hdepends : ∀ p ∈ (h₀.sequence q).tasks,
      (h.task p).dependOnSequenceTasks = (h'.task p).dependOnSequenceTasks)
    (hfree : ∀ p ∈ (h₀.sequence q).tasks, (h'.task p).dependOnSequenceTasks = false →
      (h₀.task p).expirationTime = (h₀'.task p).expirationTime) :
    ∀ p ∈ (h₀.sequence q).tasks, (h'.task p).dependOnSequenceTasks = true →
      (h.task p).expMaxActivationTime = (h'.task p).expMaxActivationTime
        ∧ (h.task p).expMaxExpirationTime = (h'.task p).expMaxExpirationTime := by
  obtain ⟨-, hlength, hclean⟩ := clean_of_accepted hset
  obtain ⟨stack, -, hperm, hstacked⟩ := findSortingIndexes_eq hlength (lt_of_clean hlength hclean)
    (not_hasCycle_of_clean hlength hclean)
  have hrow : ∀ (i : Nat) p, (h₀.sequence q).tasks[i]? = some p → ∃ row, second[i]? = some row
      ∧ AcceptedTask h₀ h (h₀.sequence q).tasks row p
      ∧ AcceptedTask h₀' h' (h₀.sequence q).tasks row p := by
    intro i p hp
    have hi := List.getElem?_eq_getElem (hlength ▸ (List.getElem?_eq_some_iff.mp hp).1)
    refine ⟨_, hi, acceptedTask_of_accepted hnodup hset hp hi, ?_⟩
    have hother := acceptedTask_of_accepted (htasks ▸ hnodup) hset' (htasks ▸ hp) hi
    rwa [htasks] at hother
  -- Along the stack: what a task depends on has the same end in both heaps.
  have hall : ∀ i ∈ stack, ∀ p, (h₀.sequence q).tasks[i]? = some p →
      (h'.task p).dependOnSequenceTasks = true →
      (h.task p).expMaxActivationTime = (h'.task p).expMaxActivationTime
        ∧ (h.task p).expMaxExpirationTime = (h'.task p).expMaxExpirationTime := by
    refine hstacked.forall_mem fun i _ ih p hp hflag => ?_
    have hmem := List.mem_of_getElem? hp
    obtain ⟨row, hi, ha, ha'⟩ := hrow i p hp
    refine (ha.expected ((hdepends p hmem).trans hflag)).unique (ha'.expected hflag) ?_ ?_ ?_
    · rw [ha.own, ha'.own, hown p hmem]
    · rw [ha.indexes, ha'.indexes]
    · intro d hd p' hp'
      rw [ha.indexes, List.mem_map] at hd
      obtain ⟨d, hd, rfl⟩ := hd
      have hmem' := List.mem_of_getElem? hp'
      obtain ⟨row', -, hb, hb'⟩ := hrow d p' hp'
      refine worstEnd_eq (hdepends p' hmem') (fun hunflagged => ?_) fun hflagged =>
        (ih d ⟨row, hi, hd⟩ p' hp' hflagged).2
      rw [(hb.free ((hdepends p' hmem').trans hunflagged)).1, (hb'.free hunflagged).1]
      exact hfree p' hmem' hunflagged
  intro p hmem
  obtain ⟨i, hp⟩ := List.mem_iff_getElem?.mp hmem
  have hi : i ∈ stack := by
    rw [hperm.mem_iff, List.mem_range]
    exact (List.getElem?_eq_some_iff.mp hp).1
  exact hall i hi p hp

/-- A row that the first matrix fills is not empty in the second, unless the task depended on others
before. -/
def KeepsRows (h : Heap) (tasks : List TaskPtr) (first second : List (List Nat)) : Prop :=
  ∀ (i : Nat) p row row', tasks[i]? = some p → first[i]? = some row → second[i]? = some row' →
    row ≠ [] → (h.task p).dependOnSequenceTasks = true ∨ row' ≠ []

/-- **When the last matrix decides**: the second matrix empties no row of the first one. -/
theorem sameDependencies_iff_keepsRows (now : Clock) (q : TaskSequencePtr)
    (first second : List (List Nat)) (h h₁ h₂ : Heap) (hnodup : (h.sequence q).tasks.Nodup)
    (hfirst : h.setTaskDependency now q first = .ok (0, h₁))
    (hsecond : h.setTaskDependency now q second = .ok (0, h₂)) :
    ∃ h', h₁.setTaskDependency now q second = .ok (0, h')
      ∧ (h'.SameDependencies h₂ (h.sequence q).tasks second
        ↔ h.KeepsRows (h.sequence q).tasks first second) := by
  obtain ⟨htasks, h', hset⟩ := accepted_again hfirst hnodup hsecond
  refine ⟨h', hset, ?_⟩
  have hlength := (clean_of_accepted hfirst).2.1
  have hlength' := (clean_of_accepted hsecond).2.1
  have htask : ∀ (i : Nat) p row row', (h.sequence q).tasks[i]? = some p → first[i]? = some row →
      second[i]? = some row' → AcceptedTask h h₁ (h.sequence q).tasks row p
        ∧ AcceptedTask h₁ h' (h.sequence q).tasks row' p
        ∧ AcceptedTask h h₂ (h.sequence q).tasks row' p := by
    intro i p row row' hp hi hi'
    have hagain := acceptedTask_of_accepted (htasks ▸ hnodup) hset (htasks ▸ hp) hi'
    rw [htasks] at hagain
    exact ⟨acceptedTask_of_accepted hnodup hfirst hp hi, hagain,
      acceptedTask_of_accepted hnodup hsecond hp hi'⟩
  have hat : ∀ p ∈ (h.sequence q).tasks, ∃ (i : Nat) (row row' : List Nat),
      (h.sequence q).tasks[i]? = some p ∧ first[i]? = some row ∧ second[i]? = some row' := by
    intro p hmem
    obtain ⟨i, hp⟩ := List.mem_iff_getElem?.mp hmem
    have hlt := (List.getElem?_eq_some_iff.mp hp).1
    exact ⟨i, _, _, hp, List.getElem?_eq_getElem (hlength ▸ hlt),
      List.getElem?_eq_getElem (hlength' ▸ hlt)⟩
  constructor
  · intro hsame i p row row' hp hi hi' hne
    obtain ⟨ha, hb, hc⟩ := htask i p row row' hp hi hi'
    have hdepends := hsame.depends p (List.mem_of_getElem? hp)
    rw [hb.depends, ha.depends, hc.depends] at hdepends
    by_contra hnot
    obtain ⟨hfree, hempty⟩ := not_or.mp hnot
    rw [not_not] at hempty
    simp [hfree, hempty, hne] at hdepends
  · intro hkeeps
    have hdepends : ∀ p ∈ (h.sequence q).tasks,
        (h'.task p).dependOnSequenceTasks = (h₂.task p).dependOnSequenceTasks := by
      intro p hmem
      obtain ⟨i, row, row', hp, hi, hi'⟩ := hat p hmem
      obtain ⟨ha, hb, hc⟩ := htask i p row row' hp hi hi'
      rw [hb.depends, ha.depends, hc.depends]
      cases hrow : row with
      | nil => simp
      | cons d rest =>
          obtain hflag | hne := hkeeps i p row row' hp hi hi' (by simp [hrow])
          · simp [hflag]
          · simp [hne]
    -- A task without dependencies has kept its times through both calls.
    have hfree : ∀ p ∈ (h.sequence q).tasks, (h₂.task p).dependOnSequenceTasks = false →
        (h₁.task p).expirationTime = (h.task p).expirationTime
          ∧ (h'.task p).expMaxExpirationTime = (h₂.task p).expMaxExpirationTime := by
      intro p hmem hunflagged
      obtain ⟨i, row, row', hp, hi, hi'⟩ := hat p hmem
      obtain ⟨ha, hb, hc⟩ := htask i p row row' hp hi hi'
      have hagain : (h'.task p).dependOnSequenceTasks = false := (hdepends p hmem).trans hunflagged
      have hfirst : (h₁.task p).dependOnSequenceTasks = false := by
        rw [hb.depends] at hagain
        exact (Bool.or_eq_false_iff.mp hagain).1
      refine ⟨(ha.free hfirst).1, ?_⟩
      rw [(hb.free hagain).2.2, (ha.free hfirst).2.2, (hc.free hunflagged).2.2]
    have htimes : ∀ p ∈ (h.sequence q).tasks, (h₂.task p).dependOnSequenceTasks = true →
        (h'.task p).expMaxActivationTime = (h₂.task p).expMaxActivationTime
          ∧ (h'.task p).expMaxExpirationTime = (h₂.task p).expMaxExpirationTime := by
      have hgeneral := @expMax_eq_of_accepted h' h₂ now q second h₁ h (htasks ▸ hnodup) htasks.symm
        hset hsecond
      rw [htasks] at hgeneral
      refine hgeneral (fun p hmem => ?_) hdepends fun p hmem hunflagged => (hfree p hmem hunflagged).1
      obtain ⟨i, row, row', hp, hi, hi'⟩ := hat p hmem
      exact (htask i p row row' hp hi hi').1.own
    refine ⟨hdepends, fun p hmem => ?_, fun i p row' hp hi' hne => ?_, fun p hmem => ?_⟩
    · obtain ⟨i, row, row', hp, hi, hi'⟩ := hat p hmem
      obtain ⟨-, hb, hc⟩ := htask i p row row' hp hi hi'
      rw [hb.indexes, hc.indexes]
    · have hmem := List.mem_of_getElem? hp
      refine (htimes p hmem ?_).1
      have hc := acceptedTask_of_accepted hnodup hsecond hp hi'
      rw [hc.depends]
      simp [hne]
    · cases hflag : (h₂.task p).dependOnSequenceTasks with
      | false => exact (hfree p hmem hflag).2
      | true => exact (htimes p hmem hflag).2

/-- A second task that depends on the first one, and then on none. -/
theorem sameDependencies_iff_keepsRows_twoTasks :
    ∃ h', (twoTasks.withDependency Clock.origin 0 [[], [0]]).setTaskDependency Clock.origin 0 [[], []]
        = .ok (0, h')
      ∧ (h'.SameDependencies (twoTasks.withDependency Clock.origin 0 [[], []]) [0, 1] [[], []]
        ↔ twoTasks.KeepsRows [0, 1] [[], [0]] [[], []]) :=
  sameDependencies_iff_keepsRows Clock.origin 0 [[], [0]] [[], []] twoTasks _ _ (by decide) rfl rfl

theorem not_sameDependencies_twoTasks :
    twoTasks.setTaskDependency Clock.origin 0 [[], [0]]
        = .ok (0, twoTasks.withDependency Clock.origin 0 [[], [0]])
      ∧ twoTasks.setTaskDependency Clock.origin 0 [[], []]
        = .ok (0, twoTasks.withDependency Clock.origin 0 [[], []])
      ∧ ∃ h', (twoTasks.withDependency Clock.origin 0 [[], [0]]).setTaskDependency Clock.origin 0 [[], []]
        = .ok (0, h')
      ∧ ¬ h'.SameDependencies (twoTasks.withDependency Clock.origin 0 [[], []]) [0, 1] [[], []] := by
  refine ⟨rfl, rfl, _, rfl, fun h => ?_⟩
  exact absurd (h.depends 1 (by decide)) (by decide)

end DshLmc.Heap
