import DshLmc.Library.TopologicalOrder
import DshLmc.Proof.CyclicDependencies

/-!
# The sorting of the tasks of a sequence

`FindSortingIndexes` visits the dependency matrix depth first and pushes a task when it has visited
all tasks in its row. Without a cycle no task in a row is one that is still being visited, so it is
on the stack already when the task itself is pushed.
-/

namespace DshLmc

open Relation

namespace Sorting

variable {depMatrix : List (List Nat)} {n index : Nat} {st st' st'' : Sorting}

def Visited (st : Sorting) (i : Nat) : Prop := st.visited[i]? = some true

def Open (st : Sorting) (i : Nat) : Prop := st.Visited i ∧ i ∉ st.stack

def unvisited (st : Sorting) : Nat := st.visited.count false

/-- What holds of the flags and the stack at any time. -/
structure Ordered (depMatrix : List (List Nat)) (n : Nat) (st : Sorting) : Prop where
  visited_length : st.visited.length = n
  visited : ∀ i ∈ st.stack, st.Visited i
  nodup : st.stack.Nodup
  stacked : Stacked (DependsOn depMatrix) st.stack

/-- A visit that has come back: it has pushed what it has visited. -/
structure Extends (depMatrix : List (List Nat)) (n : Nat) (st st' : Sorting) : Prop where
  ordered : st'.Ordered depMatrix n
  open_iff : ∀ i, st'.Open i ↔ st.Open i
  stack : st.stack ⊆ st'.stack
  unvisited_le : st'.unvisited ≤ st.unvisited

theorem Extends.refl (h : st.Ordered depMatrix n) : st.Extends depMatrix n st :=
  ⟨h, fun _ => Iff.rfl, fun _ hi => hi, le_rfl⟩

theorem Extends.trans (h : st.Extends depMatrix n st') (h' : st'.Extends depMatrix n st'') :
    st.Extends depMatrix n st'' where
  ordered := h'.ordered
  open_iff i := (h'.open_iff i).trans (h.open_iff i)
  stack _ hi := h'.stack (h.stack hi)
  unvisited_le := h'.unvisited_le.trans h.unvisited_le

/-- How a visit ends. -/
def Ends (depMatrix : List (List Nat)) (n : Nat) (st : Sorting) (tasks : List Nat)
    (result : Except Fault Sorting) : Prop :=
  ∃ st', result = .ok st' ∧ st.Extends depMatrix n st' ∧ ∀ d ∈ tasks, d ∈ st'.stack

def enter (st : Sorting) (index : Nat) : Sorting :=
  { st with visited := st.visited.set index true }

def push (st : Sorting) (index : Nat) : Sorting := { st with stack := index :: st.stack }

theorem visited_enter (h : st.Ordered depMatrix n) (hindex : index < n) {i : Nat} :
    (st.enter index).Visited i ↔ i = index ∨ st.Visited i :=
  getElem?_mark (h.visited_length ▸ hindex)

theorem open_enter (h : st.Ordered depMatrix n) (hindex : index < n) (hnew : ¬ st.Visited index)
    {i : Nat} : (st.enter index).Open i ↔ i = index ∨ st.Open i := by
  rw [Open, visited_enter h hindex]
  constructor
  · rintro ⟨hi, hnot⟩
    exact hi.imp_right fun hvisited => ⟨hvisited, hnot⟩
  · rintro (rfl | hi)
    · exact ⟨.inl rfl, fun hmem => hnew (h.visited _ hmem)⟩
    · exact ⟨.inr hi.1, hi.2⟩

theorem ordered_enter (h : st.Ordered depMatrix n) (hindex : index < n) :
    (st.enter index).Ordered depMatrix n where
  visited_length := by rw [enter, List.length_set, h.visited_length]
  visited i hi := (visited_enter h hindex).mpr (.inr (h.visited i hi))
  nodup := h.nodup
  stacked := h.stacked

theorem extends_push (h : st.Ordered depMatrix n) (hindex : index < n)
    (hnew : ¬ st.Visited index) (hext : (st.enter index).Extends depMatrix n st')
    (hsucc : ∀ d, DependsOn depMatrix index d → d ∈ st'.stack) :
    st.Extends depMatrix n (st'.push index) := by
  have hopen : st'.Open index := (hext.open_iff index).mpr ((open_enter h hindex hnew).mpr (.inl rfl))
  have hcount : (st.enter index).unvisited + 1 = st.unvisited :=
    count_mark (h.visited_length ▸ hindex) hnew
  refine ⟨⟨hext.ordered.visited_length, ?_, List.nodup_cons.mpr ⟨hopen.2, hext.ordered.nodup⟩,
    .push hsucc hext.ordered.stacked⟩, fun i => ?_, fun i hi => ?_, ?_⟩
  · exact List.forall_mem_cons.mpr ⟨hopen.1, hext.ordered.visited⟩
  · have hiff := (hext.open_iff i).trans (open_enter h hindex hnew)
    change st'.Visited i ∧ i ∉ index :: st'.stack ↔ _
    rw [List.mem_cons, not_or, and_left_comm]
    by_cases hi : i = index
    · subst hi
      exact iff_of_false (fun hpushed => hpushed.1 rfl) fun hbefore => hnew hbefore.1
    · exact (and_iff_right hi).trans (hiff.trans (or_iff_right hi))
  · exact List.mem_cons_of_mem _ (hext.stack hi)
  · have hle := hext.unvisited_le
    change st'.unvisited ≤ st.unvisited
    omega

end Sorting

variable {depMatrix : List (List Nat)} {n index fuel : Nat} {st : Sorting} {row : List Nat}

theorem sortRow_ends {visit : Nat → Sorting → Except Fault Sorting}
    (hacyclic : ¬ HasCycle depMatrix)
    (hvisit : ∀ d < n, ∀ st : Sorting, st.Ordered depMatrix n → ¬ st.Visited d →
      (∀ j, st.Open j → TransGen (DependsOn depMatrix) j d) → st.unvisited ≤ fuel →
      st.Ends depMatrix n [d] (visit d st))
    (hst : st.Ordered depMatrix n)
    (hrow : ∀ d ∈ row, d < n ∧ ∀ j, st.Open j → TransGen (DependsOn depMatrix) j d)
    (hfuel : st.unvisited ≤ fuel) : st.Ends depMatrix n row (sortRow visit row st) := by
  induction row generalizing st with
  | nil => exact ⟨st, rfl, .refl hst, by simp⟩
  | cons d rest ih =>
      obtain ⟨⟨hd, hto⟩, hrest⟩ := List.forall_mem_cons.mp hrow
      -- What follows the visit of the first task, or takes its place.
      have hnext : ∀ st' : Sorting, st.Extends depMatrix n st' → d ∈ st'.stack →
          st.Ends depMatrix n (d :: rest) (sortRow visit rest st') := by
        intro st' hext hmem
        obtain ⟨st'', heq, hext', htasks⟩ := ih hext.ordered
          (fun d' hd' => ⟨(hrest d' hd').1, fun j hj => (hrest d' hd').2 j ((hext.open_iff j).mp hj)⟩)
          (hext.unvisited_le.trans hfuel)
        exact ⟨st'', heq, hext.trans hext', List.forall_mem_cons.mpr ⟨hext'.stack hmem, htasks⟩⟩
      rw [sortRow]
      by_cases hseen : st.Visited d
      · have hmem : d ∈ st.stack := by
          by_contra hnot
          exact hacyclic ⟨d, hto d ⟨hseen, hnot⟩⟩
        rw [at?_eq_ok hseen]
        exact hnext st (.refl hst) hmem
      · rw [at?_eq_ok ((not_marked_iff (hst.visited_length ▸ hd)).mp hseen)]
        obtain ⟨st', heq, hext, hmem⟩ := hvisit d hd st hst hseen hto hfuel
        change st.Ends depMatrix n (d :: rest) ((visit d st).bind fun st => sortRow visit rest st)
        rw [heq]
        exact hnext st' hext (hmem d (by simp))

/-- **The visit of a task** that leads to it from every task being visited ends with the task on the
stack. -/
theorem sorter_ends (hlength : depMatrix.length = n) (hlt : ∀ row ∈ depMatrix, ∀ d ∈ row, d < n)
    (hacyclic : ¬ HasCycle depMatrix) (hindex : index < n) (hst : st.Ordered depMatrix n)
    (hnew : ¬ st.Visited index) (hpath : ∀ j, st.Open j → TransGen (DependsOn depMatrix) j index)
    (hfuel : st.unvisited ≤ fuel) :
    st.Ends depMatrix n [index] (sorter depMatrix fuel index st) := by
  induction fuel generalizing index st with
  | zero =>
      have hcount : (st.enter index).unvisited + 1 = st.unvisited :=
        count_mark (hst.visited_length ▸ hindex) hnew
      omega
  | succ fuel ih =>
      obtain ⟨row, hrow⟩ : ∃ row, depMatrix[index]? = some row :=
        ⟨_, List.getElem?_eq_getElem (hlength ▸ hindex)⟩
      have hcount : (st.enter index).unvisited + 1 = st.unvisited :=
        count_mark (hst.visited_length ▸ hindex) hnew
      have hloop : (st.enter index).Ends depMatrix n row
          (sortRow (sorter depMatrix fuel) row (st.enter index)) := by
        refine @sortRow_ends _ _ fuel _ _ _ hacyclic
          (fun d hd st hst hnew hto hle => ih hd hst hnew hto hle)
          (Sorting.ordered_enter hst hindex) (fun d hd => ?_) (by omega)
        have hedge : DependsOn depMatrix index d := ⟨row, hrow, hd⟩
        refine ⟨hlt row (List.mem_of_getElem? hrow) d hd, fun j hj => ?_⟩
        obtain rfl | hj := (Sorting.open_enter hst hindex hnew).mp hj
        · exact .single hedge
        · exact (hpath j hj).tail hedge
      obtain ⟨st', heq, hext, htasks⟩ := hloop
      have hsucc : ∀ d, DependsOn depMatrix index d → d ∈ st'.stack := by
        rintro d ⟨row', hrow', hd⟩
        obtain rfl := Option.some.inj (hrow.symm.trans hrow')
        exact htasks d hd
      have hvisit : sorter depMatrix (fuel + 1) index st
          = (sortRow (sorter depMatrix fuel) row (st.enter index)).map fun st => st.push index := by
        rw [sorter, at?_eq_ok hrow]
        rfl
      refine ⟨st'.push index, ?_, Sorting.extends_push hst hindex hnew hext hsucc,
        by simp [Sorting.push]⟩
      rw [hvisit, heq]
      rfl

theorem sortRow_range (hlength : depMatrix.length = n)
    (hlt : ∀ row ∈ depMatrix, ∀ d ∈ row, d < n) (hacyclic : ¬ HasCycle depMatrix) :
    ∃ st, sortRow (sorter depMatrix (n + 1)) (List.range n)
        { visited := List.replicate n false, stack := [] } = .ok st
      ∧ st.stack.Perm (List.range n) ∧ Stacked (DependsOn depMatrix) st.stack := by
  have hunmarked : ∀ j : Nat, ¬ (List.replicate n false)[j]? = some true := by
    intro j hj
    have hmem := List.mem_of_getElem? hj
    simp at hmem
  obtain ⟨st, heq, hext, htasks⟩ := @sortRow_ends depMatrix n (n + 1)
    { visited := List.replicate n false, stack := [] } (List.range n) (sorter depMatrix (n + 1))
    hacyclic (fun d hd st hst hnew hto hle => sorter_ends hlength hlt hacyclic hd hst hnew hto hle)
    ⟨by simp, by simp, List.nodup_nil, .nil⟩
    (fun d hd => ⟨List.mem_range.mp hd, fun j hj => absurd hj.1 (hunmarked j)⟩)
    (by simp [Sorting.unvisited])
  refine ⟨st, heq, ?_, hext.ordered.stacked⟩
  refine (List.perm_ext_iff_of_nodup hext.ordered.nodup List.nodup_range).mpr fun i =>
    ⟨fun hi => ?_, htasks i⟩
  have hvisited := (List.getElem?_eq_some_iff.mp (hext.ordered.visited i hi)).1
  exact List.mem_range.mpr (hext.ordered.visited_length ▸ hvisited)

theorem recordOrder_eq {order stack : List Nat} {counter : Nat}
    (hlength : stack.length ≤ order.length) (hcounter : stack ≠ [] → counter + 1 = stack.length) :
    recordOrder order counter stack = .ok (stack.reverse ++ order.drop stack.length) := by
  induction stack generalizing order counter with
  | nil => simp [recordOrder]
  | cons top stack ih =>
      have hslot : counter = stack.length := by simpa using hcounter (by simp)
      have hlt : counter < order.length := by
        rw [List.length_cons] at hlength
        omega
      have hdrop : (order.set counter top).drop stack.length = top :: order.drop (stack.length + 1) := by
        rw [List.drop_eq_getElem_cons (by simpa using hslot ▸ hlt),
          List.drop_set_of_lt (by omega)]
        simp [hslot]
      rw [recordOrder, if_pos hlt, ih (by rw [List.length_set]; omega) fun hne => ?_, hdrop]
      · simp
      · have hpos := List.length_pos_iff.mpr hne
        rw [if_neg (by omega)]
        omega

theorem recordSortingIndexes_eq (hlength : depMatrix.length = n)
    (hlt : ∀ row ∈ depMatrix, ∀ d ∈ row, d < n) (hacyclic : ¬ HasCycle depMatrix) :
    recordSortingIndexes n depMatrix = (findSortingIndexes n depMatrix).map fun order => (0, order) := by
  rw [recordSortingIndexes, findSortingIndexes]
  split
  case isTrue => rfl
  case isFalse hsome =>
    obtain ⟨st, heq, hperm, -⟩ := sortRow_range hlength hlt hacyclic
    have hcount : st.stack.length = n := by rw [hperm.length_eq, List.length_range]
    have hrecord : recordOrder (List.range n) (n - 1) st.stack = .ok st.stack.reverse := by
      rw [recordOrder_eq (by simp [hcount]) fun hne => ?_]
      · simp [hcount]
      · have hpos := List.length_pos_iff.mpr hne
        omega
    rw [heq]
    change ((recordOrder (List.range n) (n - 1) st.stack).map fun order => ((0 : Int), order)) = _
    rw [hrecord]
    rfl

/-- **What the sorting finds**: the stack of the visits, written out from its bottom. -/
theorem findSortingIndexes_eq (hlength : depMatrix.length = n)
    (hlt : ∀ row ∈ depMatrix, ∀ d ∈ row, d < n) (hacyclic : ¬ HasCycle depMatrix) :
    ∃ stack, findSortingIndexes n depMatrix = .ok stack.reverse ∧ stack.Perm (List.range n)
      ∧ Stacked (DependsOn depMatrix) stack := by
  rw [findSortingIndexes]
  split
  case isTrue hnone =>
    have hn : n = 0 := hnone.elim id fun hempty => by
      rw [← hlength, List.isEmpty_iff.mp hempty, List.length_nil]
    exact ⟨[], by rw [hn]; rfl, by rw [hn]; simp, .nil⟩
  case isFalse =>
    obtain ⟨st, heq, hperm, hstacked⟩ := sortRow_range hlength hlt hacyclic
    exact ⟨st.stack, by rw [heq]; rfl, hperm, hstacked⟩

/-- **The order of the tasks** is a topological order. -/
theorem recordSortingIndexes_spec (n : Nat) (depMatrix : List (List Nat))
    (hlength : depMatrix.length = n) (hlt : ∀ row ∈ depMatrix, ∀ d ∈ row, d < n)
    (hacyclic : ¬ HasCycle depMatrix) :
    ∃ order, recordSortingIndexes n depMatrix = .ok (0, order) ∧ order.Perm (List.range n)
      ∧ ∀ (i : Nat) row, depMatrix[i]? = some row → ∀ d ∈ row, order.idxOf d < order.idxOf i := by
  obtain ⟨stack, heq, hperm, hstacked⟩ := findSortingIndexes_eq hlength hlt hacyclic
  refine ⟨stack.reverse, ?_, (List.reverse_perm stack).trans hperm, fun i row hrow d hd => ?_⟩
  · rw [recordSortingIndexes_eq hlength hlt hacyclic, heq]
    rfl
  · have hi : i < n := hlength ▸ (List.getElem?_eq_some_iff.mp hrow).1
    exact hstacked.idxOf_lt (hperm.nodup_iff.mpr List.nodup_range)
      (hperm.mem_iff.mpr (List.mem_range.mpr hi)) ⟨row, hrow, hd⟩

/-- A first task that depends on the second and the third, and a second one that depends on the third. -/
theorem recordSortingIndexes_spec_chain :
    ∃ order, recordSortingIndexes 3 [[1, 2], [2], []] = .ok (0, order) ∧ order.Perm (List.range 3)
      ∧ ∀ (i : Nat) row, [[1, 2], [2], []][i]? = some row →
        ∀ d ∈ row, order.idxOf d < order.idxOf i := by
  refine recordSortingIndexes_spec 3 [[1, 2], [2], []] rfl (by decide) ?_
  obtain ⟨cyclic, heq, hiff⟩ := @hasCyclicDependencies_of_lt [[1, 2], [2], []] 3 rfl (by decide)
  have hfalse : hasCyclicDependencies 3 [[1, 2], [2], []] = .ok false := by rfl
  rw [hfalse] at heq
  cases heq
  simp [← hiff]

end DshLmc
