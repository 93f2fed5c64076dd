import Mathlib.Data.List.GetD
import DshLmc.Proof.DependencyChecks
import DshLmc.Proof.Scheduling

/-!
# Sorting a sequence

`Sort` puts the tasks of a sequence into the order that `FindSortingIndexes` finds. The dependencies
are positions, in the matrix and in the tasks, and these stay as they were. So they keep their
meaning, and the next `Sort` finds the tasks in order, only when no task has moved.
-/

namespace DshLmc

variable {depMatrix : List (List Nat)} {n : Nat}

/-- Every task depends on tasks added before it. -/
def DependsBackwards (depMatrix : List (List Nat)) : Prop :=
  ∀ (i : Nat) row, depMatrix[i]? = some row → ∀ d ∈ row, d < i

theorem sortRow_of_visited {visit : Nat → Sorting → Except Fault Sorting} {row : List Nat}
    {st : Sorting} (hrow : ∀ d ∈ row, st.Visited d) : sortRow visit row st = .ok st := by
  induction row with
  | nil => rfl
  | cons d rest ih =>
      obtain ⟨hd, hrest⟩ := List.forall_mem_cons.mp hrow
      rw [sortRow, at?_eq_ok hd]
      exact ih hrest

theorem sortRow_of_dependsBackwards (hlength : depMatrix.length = n)
    (hback : DependsBackwards depMatrix) {k rest : Nat} {st : Sorting} (hk : k + rest = n)
    (hst : st.visited.length = n) (hvisited : ∀ j, st.Visited j ↔ j < k) :
    ∃ st', sortRow (sorter depMatrix (n + 1)) (List.range' k rest) st = .ok st'
      ∧ st'.stack = (List.range' k rest).reverse ++ st.stack := by
  induction rest generalizing st k with
  | zero => exact ⟨st, rfl, rfl⟩
  | succ rest ih =>
      obtain ⟨row, hrow⟩ : ∃ row, depMatrix[k]? = some row :=
        ⟨_, List.getElem?_eq_getElem (by omega)⟩
      have hmarked : ∀ j, (st.enter k).Visited j ↔ j < k + 1 := by
        intro j
        rw [Sorting.Visited, Sorting.enter, getElem?_mark (by omega)]
        exact (or_congr_right (hvisited j)).trans (by omega)
      have hnew : st.visited[k]? = some false := by
        rw [← not_marked_iff (by omega)]
        exact fun hk => absurd ((hvisited k).mp hk) (lt_irrefl k)
      have hvisit : sorter depMatrix (n + 1) k st = .ok ((st.enter k).push k) := by
        have hloop : sortRow (sorter depMatrix n) row (st.enter k) = .ok (st.enter k) := by
          refine sortRow_of_visited fun d hd => (hmarked d).mpr ?_
          have hlt := hback k row hrow d hd
          omega
        rw [sorter, at?_eq_ok hrow]
        change (sortRow (sorter depMatrix n) row (st.enter k)).map (fun st => st.push k) = _
        rw [hloop]
        rfl
      obtain ⟨st', hrest, hstack⟩ := @ih (k + 1) ((st.enter k).push k) (by omega)
        (by rw [Sorting.push, Sorting.enter, List.length_set, hst]) hmarked
      refine ⟨st', ?_, ?_⟩
      · rw [List.range'_succ, sortRow, at?_eq_ok hnew]
        change (sorter depMatrix (n + 1) k st).bind (fun st => sortRow _ _ st) = _
        rw [hvisit]
        exact hrest
      · rw [hstack, List.range'_succ, List.reverse_cons, List.append_assoc]
        rfl

theorem findSortingIndexes_of_dependsBackwards (hlength : depMatrix.length = n)
    (hback : DependsBackwards depMatrix) :
    findSortingIndexes n depMatrix = .ok (List.range n) := by
  rw [findSortingIndexes]
  split
  case isTrue => rfl
  case isFalse =>
    have hunmarked : ∀ j : Nat, (List.replicate n false)[j]? = some true ↔ j < 0 := by
      intro j
      refine iff_of_false (fun hj => ?_) (Nat.not_lt_zero j)
      have hmem := List.mem_of_getElem? hj
      simp at hmem
    obtain ⟨st, heq, hstack⟩ := @sortRow_of_dependsBackwards _ n hlength hback 0 n
      { visited := List.replicate n false, stack := [] } (Nat.zero_add n) (by simp) hunmarked
    rw [List.range_eq_range', heq]
    change Except.ok st.stack.reverse = _
    rw [hstack, List.append_nil, List.reverse_reverse]

namespace Heap

variable {h h' h₀ : Heap} {now : Clock} {q : TaskSequencePtr} {p : TaskPtr} {tasks : List TaskPtr}
  {order : List Nat} {depIndexes : List (List Nat)}

theorem orderTasks_eq (horder : ∀ i ∈ order, i < tasks.length) :
    orderTasks tasks order = .ok (order.map fun i => tasks.getD i 0) := by
  induction order with
  | nil => rfl
  | cons i rest ih =>
      obtain ⟨hi, hrest⟩ := List.forall_mem_cons.mp horder
      rw [orderTasks, at?_eq_ok (List.getElem?_eq_getElem hi), ih hrest, List.map_cons,
        List.getD_eq_getElem _ _ hi]
      rfl

theorem map_range_getD : (List.range tasks.length).map (fun i => tasks.getD i 0) = tasks := by
  refine List.ext_getElem (by simp) fun i hi hi' => ?_
  rw [List.getElem_map, List.getElem_range, List.getD_eq_getElem _ _ hi']

theorem sort_eq (hlength : (h.sequence q).dependencyMatrix.length = (h.sequence q).tasks.length)
    (hclean : ∀ j < (h.sequence q).tasks.length, Clean (h.sequence q).dependencyMatrix j) :
    ∃ order, findSortingIndexes (h.sequence q).tasks.length (h.sequence q).dependencyMatrix = .ok order
      ∧ order.Perm (List.range (h.sequence q).tasks.length)
      ∧ (∀ (i : Nat) row, (h.sequence q).dependencyMatrix[i]? = some row →
        ∀ d ∈ row, order.idxOf d < order.idxOf i)
      ∧ h.sort q = .ok (0, h.updateSequence q fun seq =>
        { seq with tasks := order.map fun i => (h.sequence q).tasks.getD i 0 }) := by
  have hlt := lt_of_clean hlength hclean
  have hacyclic := not_hasCycle_of_clean hlength hclean
  obtain ⟨stack, hfind, hperm, hstacked⟩ := findSortingIndexes_eq hlength hlt hacyclic
  have horder : ∀ i ∈ stack.reverse, i < (h.sequence q).tasks.length := fun i hi =>
    List.mem_range.mp (hperm.mem_iff.mp (List.mem_reverse.mp hi))
  refine ⟨stack.reverse, hfind, (List.reverse_perm stack).trans hperm, fun i row hi d hd => ?_, ?_⟩
  · have hin : i < (h.sequence q).tasks.length := hlength ▸ (List.getElem?_eq_some_iff.mp hi).1
    exact hstacked.idxOf_lt (hperm.nodup_iff.mpr List.nodup_range)
      (hperm.mem_iff.mpr (List.mem_range.mpr hin)) ⟨row, hi, hd⟩
  · rw [sort, recordSortingIndexes_eq hlength hlt hacyclic, hfind]
    change (orderTasks (h.sequence q).tasks stack.reverse).bind _ = _
    rw [orderTasks_eq horder]
    rfl

def sortTimes (q : TaskSequencePtr) : Nat → Heap → Except Fault Heap
  | 0, h => .ok h
  | k + 1, h => do
      let (_, h) ← h.sort q
      sortTimes q k h

/-- After any number of sorts the dependencies mean what the matrix meant for the tasks in their first
order, whatever the statuses are and whatever else the manager holds, and a second sort moves
nothing. -/
structure SortKeepsMeaning (h : Heap) (q : TaskSequencePtr) : Prop where
  runnable : ∀ k, ∃ h', h.sortTimes q k = .ok h' ∧ ∀ m : TaskManager, SameObjects h' m.toHeap →
    q ∈ m.taskSequences → (∀ q' ∈ m.taskSequences, (h'.sequence q').tasks ≠ []) →
    ∀ (i : Nat) p row, (h.sequence q).tasks[i]? = some p →
      (h.sequence q).dependencyMatrix[i]? = some row →
      (m.isSequenceTaskRunnable p = true
        ↔ ∀ d ∈ row, ∃ p', (h.sequence q).tasks[d]? = some p' ∧ (m.task p').status = .completed)
  stable : ∃ h₁ h₂, h.sort q = .ok (0, h₁) ∧ h₁.sort q = .ok (0, h₂)
    ∧ (h₂.sequence q).tasks = (h₁.sequence q).tasks

theorem sortTimes_of_dependsBackwards
    (hlength : (h.sequence q).dependencyMatrix.length = (h.sequence q).tasks.length)
    (hclean : ∀ j < (h.sequence q).tasks.length, Clean (h.sequence q).dependencyMatrix j)
    (hback : DependsBackwards (h.sequence q).dependencyMatrix) :
    h.sort q = .ok (0, h) ∧ ∀ k, h.sortTimes q k = .ok h := by
  have hsort : h.sort q = .ok (0, h) := by
    obtain ⟨order, hfind, -, -, hsort⟩ := sort_eq hlength hclean
    rw [findSortingIndexes_of_dependsBackwards hlength hback] at hfind
    obtain rfl := Except.ok.inj hfind
    rw [hsort, map_range_getD]
    simp [updateSequence]
  refine ⟨hsort, fun k => ?_⟩
  induction k with
  | zero => rfl
  | succ k ih =>
      rw [sortTimes, hsort]
      exact ih

/-- A second sort that moves nothing follows a first one that moved nothing. -/
theorem dependsBackwards_of_stable (hnodup : (h.sequence q).tasks.Nodup)
    (hlength : (h.sequence q).dependencyMatrix.length = (h.sequence q).tasks.length)
    (hclean : ∀ j < (h.sequence q).tasks.length, Clean (h.sequence q).dependencyMatrix j)
    {h₁ h₂ : Heap} (hfirst : h.sort q = .ok (0, h₁)) (hsecond : h₁.sort q = .ok (0, h₂))
    (hstable : (h₂.sequence q).tasks = (h₁.sequence q).tasks) :
    DependsBackwards (h.sequence q).dependencyMatrix := by
  obtain ⟨order, hfind, hperm, hbefore, hsort⟩ := sort_eq hlength hclean
  rw [hfirst] at hsort
  obtain rfl := congrArg Prod.snd (Except.ok.inj hsort)
  have hcount : order.length = (h.sequence q).tasks.length := by
    rw [hperm.length_eq, List.length_range]
  have htasks : ((h.updateSequence q fun seq => { seq with
      tasks := order.map fun i => (h.sequence q).tasks.getD i 0 }).sequence q).tasks
        = order.map fun i => (h.sequence q).tasks.getD i 0 := by simp [updateSequence]
  have hmatrix : ((h.updateSequence q fun seq => { seq with
      tasks := order.map fun i => (h.sequence q).tasks.getD i 0 }).sequence q).dependencyMatrix
        = (h.sequence q).dependencyMatrix := by simp [updateSequence]
  obtain ⟨order', hfind', -, -, hsort'⟩ := @sort_eq (h.updateSequence q fun seq => { seq with
      tasks := order.map fun i => (h.sequence q).tasks.getD i 0 }) q
    (by rw [htasks, hmatrix, List.length_map, hcount, hlength])
    (by rw [htasks, hmatrix, List.length_map, hcount]; exact hclean)
  rw [htasks, hmatrix, List.length_map, hcount, hfind] at hfind'
  obtain rfl := Except.ok.inj hfind'
  rw [hsecond] at hsort'
  obtain rfl := congrArg Prod.snd (Except.ok.inj hsort')
  have hmap : order.map (fun i => (order.map fun i => (h.sequence q).tasks.getD i 0).getD i 0)
      = order.map fun i => (h.sequence q).tasks.getD i 0 := by
    simpa [updateSequence] using hstable
  -- The task at a place of the sorted sequence is the one that was there before.
  have hfixed : ∀ (i : Nat) (hi : i < order.length), order[i] = i := by
    intro i hi
    have hin : i ∈ order := hperm.mem_iff.mpr (List.mem_range.mpr (hcount ▸ hi))
    have hplace := List.map_inj_left.mp hmap i hin
    rw [List.getD_eq_getElem _ _ (by simpa using hi), List.getElem_map] at hplace
    have hlt : order[i] < (h.sequence q).tasks.length :=
      List.mem_range.mp (hperm.mem_iff.mp (List.getElem_mem hi))
    rw [List.getD_eq_getElem _ _ hlt, List.getD_eq_getElem _ _ (hcount ▸ hi)] at hplace
    exact (hnodup.getElem_inj_iff).mp hplace
  have hindex : ∀ i < order.length, order.idxOf i = i := by
    intro i hi
    have hself := (hperm.nodup_iff.mpr List.nodup_range).idxOf_getElem i hi
    rwa [hfixed i hi] at hself
  intro i row hi d hd
  have hlt := hbefore i row hi d hd
  have hin : i < order.length := hcount ▸ hlength ▸ (List.getElem?_eq_some_iff.mp hi).1
  have hdn := lt_of_clean hlength hclean row (List.mem_of_getElem? hi) d hd
  rwa [hindex i hin, hindex d (hcount ▸ hdn)] at hlt

/-- **When sorting keeps the meaning of the dependencies**: every task depends on tasks added before
it, so that sorting moves nothing. -/
theorem sortKeepsMeaning_iff (now : Clock) (q : TaskSequencePtr) (depIndexes : List (List Nat))
    (h₀ h : Heap) (hb : h₀.WellBuilt) (hset : h₀.setTaskDependency now q depIndexes = .ok (0, h)) :
    h.SortKeepsMeaning q ↔ DependsBackwards depIndexes := by
  have hwell : h.WellBuilt := hb.setTaskDependency hset
  obtain ⟨-, hsequence, -, -⟩ := setTaskDependency_spec (hb.nodup q) hset
  have htasks : (h.sequence q).tasks = (h₀.sequence q).tasks :=
    (samePlaces_setTaskDependency (hb.nodup q) hset).tasks q
  have hmatrix : (h.sequence q).dependencyMatrix = depIndexes := by
    rw [hsequence, Function.update_self]
  obtain ⟨-, hlength, hclean⟩ := clean_of_accepted hset
  rw [← htasks, ← hmatrix] at hlength hclean
  constructor
  · intro hkeeps
    obtain ⟨h₁, h₂, hfirst, hsecond, hstable⟩ := hkeeps.stable
    exact hmatrix ▸ dependsBackwards_of_stable (hwell.nodup q) hlength hclean hfirst hsecond hstable
  · intro hback
    have haccepted : h.Accepted q :=
      ⟨now, h₀, h, depIndexes, hset, htasks, rfl, fun _ _ => ⟨rfl, rfl⟩⟩
    obtain ⟨hsort, htimes⟩ := sortTimes_of_dependsBackwards hlength hclean (hmatrix ▸ hback)
    refine ⟨fun k => ⟨h, htimes k, fun m hs hq hnonempty i p row hi hrow => ?_⟩, h, h, hsort, hsort, rfl⟩
    rw [isSequenceTaskRunnable_iff hwell haccepted hs hnonempty hi hrow, hs.tasks]
    exact and_iff_right fun _ => hq

def dependsForwards : Heap := twoTasks.withDependency Clock.origin 0 [[1], []]

theorem sortKeepsMeaning_iff_dependsForwards :
    dependsForwards.SortKeepsMeaning 0 ↔ DependsBackwards [[1], []] :=
  sortKeepsMeaning_iff Clock.origin 0 [[1], []] twoTasks dependsForwards wellBuilt_twoTasks rfl

def sortedOnce : Heap :=
  dependsForwards.updateSequence 0 fun seq => { seq with tasks := [1, 0] }

/-- The task it depended on is completed, and the task at the place it depended on is itself. -/
theorem not_sortKeepsMeaning_dependsForwards :
    twoTasks.setTaskDependency Clock.origin 0 [[1], []] = .ok (0, dependsForwards)
      ∧ ¬ dependsForwards.SortKeepsMeaning 0 := by
  refine ⟨rfl, fun hkeeps => ?_⟩
  obtain ⟨h', hsort, hrunnable⟩ := hkeeps.runnable 1
  have hsorted : dependsForwards.sortTimes 0 1 = .ok sortedOnce := rfl
  obtain rfl : h' = sortedOnce := Except.ok.inj (hsort.symm.trans hsorted)
  let m : TaskManager :=
    { TaskManager.create (sortedOnce.setStatus 1 .completed "") "DSH" with taskSequences := [0] }
  have hobjects : SameObjects sortedOnce m.toHeap :=
    sameObjects_updateTask _ fun t => Task.fixed_setStatus .completed "" t
  have hiff := hrunnable m hobjects (by decide) (by decide) 0 0 [1] rfl rfl
  have htrue := hiff.mpr fun d hd => ⟨1, by rw [List.mem_singleton.mp hd]; rfl, rfl⟩
  exact absurd htrue (by decide)

end Heap

end DshLmc
