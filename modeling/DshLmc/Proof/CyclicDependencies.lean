import DshLmc.Library.Colouring
import DshLmc.Utils.TaskSequence

/-!
# The check for cyclic dependencies

`HasCyclicDependencies` searches the dependency matrix depth first. A task on the recursion stack is
being searched from, and a task that was visited and is not on the stack has been left. Every task
on the stack leads to the one the search is at, so an edge back to it closes a cycle. The search
reads the entries unchecked, and leaves the matrix at the first one that it comes to and that has no
row.
-/

namespace DshLmc

open Relation

def DependsOn (depMatrix : List (List Nat)) (i d : Nat) : Prop :=
  ∃ row, depMatrix[i]? = some row ∧ d ∈ row

def HasCycle (depMatrix : List (List Nat)) : Prop := ∃ i, TransGen (DependsOn depMatrix) i i

/-- The search from a task comes back: the task has a row, and the search comes back from all that is
in it. -/
inductive Clean (depMatrix : List (List Nat)) : Nat → Prop
  | intro {i : Nat} {row : List Nat} (hrow : depMatrix[i]? = some row)
      (hclean : ∀ d ∈ row, Clean depMatrix d) : Clean depMatrix i

/-- The search from a task leaves the matrix: it comes back from all that it comes to first, and then
it comes to what has no row. -/
inductive LeavesFirst (depMatrix : List (List Nat)) : Nat → Prop
  | outside {i : Nat} (hnone : depMatrix[i]? = none) : LeavesFirst depMatrix i
  | row {i d : Nat} {before after : List Nat} (hrow : depMatrix[i]? = some (before ++ d :: after))
      (hbefore : ∀ c ∈ before, Clean depMatrix c) (hd : LeavesFirst depMatrix d) :
      LeavesFirst depMatrix i

/-- The search from a task comes to another one in its row. -/
def ComesTo (depMatrix : List (List Nat)) (i d : Nat) : Prop :=
  ∃ before after, depMatrix[i]? = some (before ++ d :: after) ∧ ∀ c ∈ before, Clean depMatrix c

/-- The search from a task closes a cycle. -/
def Loops (depMatrix : List (List Nat)) (i : Nat) : Prop :=
  ∃ j, ReflTransGen (ComesTo depMatrix) i j ∧ TransGen (ComesTo depMatrix) j j

section Searches

variable {depMatrix : List (List Nat)} {i d : Nat}

theorem ComesTo.dependsOn (h : ComesTo depMatrix i d) : DependsOn depMatrix i d := by
  obtain ⟨before, after, hrow, -⟩ := h
  exact ⟨_, hrow, by simp⟩

theorem dependsOn_of_comesTo (h : TransGen (ComesTo depMatrix) i d) :
    TransGen (DependsOn depMatrix) i d :=
  h.lift id fun _ _ => ComesTo.dependsOn

theorem Clean.of_dependsOn (h : Clean depMatrix i) (hedge : DependsOn depMatrix i d) :
    Clean depMatrix d := by
  obtain ⟨hrow, hclean⟩ := h
  obtain ⟨row, hrow', hd⟩ := hedge
  obtain rfl := Option.some.inj (hrow.symm.trans hrow')
  exact hclean d hd

theorem Clean.of_transGen (h : Clean depMatrix i) (hpath : TransGen (DependsOn depMatrix) i d) :
    Clean depMatrix d := by
  induction hpath with
  | single hedge => exact h.of_dependsOn hedge
  | tail _ hedge ih => exact ih.of_dependsOn hedge

theorem Clean.not_cyclic (h : Clean depMatrix i) : ¬ TransGen (DependsOn depMatrix) i i := by
  induction h with
  | intro hrow hclean ih =>
      intro hcycle
      obtain ⟨d, hedge, hpath⟩ := TransGen.head'_iff.mp hcycle
      obtain ⟨row, hrow', hd⟩ := hedge
      obtain rfl := Option.some.inj (hrow.symm.trans hrow')
      exact ih d hd (transGen_self_of_edge hpath ⟨_, hrow, hd⟩).2

theorem Clean.not_loops (h : Clean depMatrix i) : ¬ Loops depMatrix i := by
  rintro ⟨j, hpath, hcycle⟩
  have hcycle' := dependsOn_of_comesTo hcycle
  obtain rfl | hpath := reflTransGen_iff_eq_or_transGen.mp hpath
  · exact h.not_cyclic hcycle'
  · exact (h.of_transGen (dependsOn_of_comesTo hpath)).not_cyclic hcycle'

theorem LeavesFirst.not_clean (h : LeavesFirst depMatrix i) : ¬ Clean depMatrix i := by
  induction h with
  | outside hnone =>
      rintro ⟨hrow, -⟩
      rw [hnone] at hrow
      cases hrow
  | row hrow hbefore hd ih => exact fun hclean => ih (hclean.of_dependsOn ⟨_, hrow, by simp⟩)

/-- The first task in a row from which the search does not come back is the only one. -/
theorem eq_of_first {row before after before' after' : List Nat} {d d' : Nat}
    (h : row = before ++ d :: after) (h' : row = before' ++ d' :: after')
    (hbefore : ∀ c ∈ before, Clean depMatrix c) (hbefore' : ∀ c ∈ before', Clean depMatrix c)
    (hd : ¬ Clean depMatrix d) (hd' : ¬ Clean depMatrix d') : d = d' := by
  induction before generalizing row before' with
  | nil =>
      cases before' with
      | nil =>
          rw [h] at h'
          exact (List.cons.inj h').1
      | cons c before' =>
          rw [h] at h'
          have heq : d = c := (List.cons.inj h').1
          exact absurd (hbefore' c List.mem_cons_self) (heq ▸ hd)
  | cons c before ih =>
      cases before' with
      | nil =>
          rw [h] at h'
          have heq : c = d' := (List.cons.inj h').1
          exact absurd (hbefore c List.mem_cons_self) (heq ▸ hd')
      | cons c' before' =>
          rw [h] at h'
          exact ih rfl (List.cons.inj h').2 (fun c hc => hbefore c (List.mem_cons_of_mem _ hc))
            fun c hc => hbefore' c (List.mem_cons_of_mem _ hc)

/-- A search that closes a cycle never leaves the matrix. -/
theorem LeavesFirst.not_loops (h : LeavesFirst depMatrix i) : ¬ Loops depMatrix i := by
  induction h with
  | outside hnone =>
      rintro ⟨j, hpath, hcycle⟩
      have hstart := TransGen.head'_iff.mp (TransGen.trans_right hpath hcycle)
      obtain ⟨d, ⟨before, after, hrow, -⟩, -⟩ := hstart
      rw [hnone] at hrow
      cases hrow
  | @row i d before after hrow hbefore hd ih =>
      rintro ⟨j, hpath, hcycle⟩
      -- The next task on the way to the cycle is the one from which the search leaves.
      obtain ⟨d', ⟨before', after', hrow', hbefore'⟩, hpath'⟩ :=
        TransGen.head'_iff.mp (TransGen.trans_right hpath hcycle)
      have hloops : Loops depMatrix d' := ⟨j, hpath', hcycle⟩
      have heq := eq_of_first rfl (Option.some.inj (hrow.symm.trans hrow')) hbefore hbefore'
        hd.not_clean fun hclean => hclean.not_loops hloops
      exact ih (heq ▸ hloops)

end Searches

namespace Dfs

variable {depMatrix : List (List Nat)} {n index d : Nat} {st st' st'' : Dfs}

def Visited (st : Dfs) (i : Nat) : Prop := st.visited[i]? = some true

def OnStack (st : Dfs) (i : Nat) : Prop := st.recStack[i]? = some true

def left (st : Dfs) : Set Nat := {i | st.Visited i ∧ ¬ st.OnStack i}

def unvisited (st : Dfs) : Nat := st.visited.count false

/-- What holds of the flags at any time. -/
structure Ordered (depMatrix : List (List Nat)) (n : Nat) (st : Dfs) : Prop where
  visited_length : st.visited.length = n
  recStack_length : st.recStack.length = n
  visited : ∀ i, st.OnStack i → st.Visited i
  finished : Finished (DependsOn depMatrix) st.left

/-- A search that has come back: the stack is as it was, and more tasks may have been visited. -/
structure Extends (depMatrix : List (List Nat)) (n : Nat) (st st' : Dfs) : Prop where
  ordered : st'.Ordered depMatrix n
  recStack : st'.recStack = st.recStack
  visited : ∀ i, st.Visited i → st'.Visited i
  unvisited_le : st'.unvisited ≤ st.unvisited

theorem Extends.refl (h : st.Ordered depMatrix n) : st.Extends depMatrix n st :=
  ⟨h, rfl, fun _ hi => hi, le_rfl⟩

theorem Extends.trans (h : st.Extends depMatrix n st') (h' : st'.Extends depMatrix n st'') :
    st.Extends depMatrix n st'' where
  ordered := h'.ordered
  recStack := h'.recStack.trans h.recStack
  visited i hi := h'.visited i (h.visited i hi)
  unvisited_le := h'.unvisited_le.trans h.unvisited_le

theorem Extends.onStack_iff (h : st.Extends depMatrix n st') {i : Nat} :
    st'.OnStack i ↔ st.OnStack i := by
  rw [OnStack, OnStack, h.recStack]

theorem Extends.left_subset (h : st.Extends depMatrix n st') : st.left ⊆ st'.left :=
  fun i hi => ⟨h.visited i hi.1, fun hstack => hi.2 (h.onStack_iff.mp hstack)⟩

theorem clean_of_left (hlength : depMatrix.length = n) (h : st.Ordered depMatrix n) {i : Nat}
    (hi : i ∈ st.left) : Clean depMatrix i := by
  have hlt : ∀ j ∈ st.left, j < n := fun j hj =>
    h.visited_length ▸ (List.getElem?_eq_some_iff.mp hj.1).1
  have hacc := h.finished.acc ((Set.finite_lt_nat n).subset hlt) hi
  induction hacc with
  | intro i _ ih =>
      have hrow := List.getElem?_eq_getElem (hlength ▸ hlt i hi)
      refine ⟨hrow, fun d hd => ih d ⟨_, hrow, hd⟩ ?_⟩
      exact h.finished.closed i hi d ⟨_, hrow, hd⟩

/-- How the search from a task ends: it leaves the matrix, it closes a cycle, or it has left the
tasks that it had to search. -/
inductive Outcome (depMatrix : List (List Nat)) (n : Nat) (st : Dfs) (index : Nat)
    (tasks : List Nat) : Except Fault (Bool × Dfs) → Prop
  | leaves (h : LeavesFirst depMatrix index) :
      Outcome depMatrix n st index tasks (.error .outOfRange)
  | loops {st' : Dfs} (h : Loops depMatrix index) :
      Outcome depMatrix n st index tasks (.ok (true, st'))
  | returns {st' : Dfs} (hext : st.Extends depMatrix n st') (hleft : ∀ d ∈ tasks, d ∈ st'.left) :
      Outcome depMatrix n st index tasks (.ok (false, st'))

def enter (st : Dfs) (index : Nat) : Dfs :=
  { visited := st.visited.set index true, recStack := st.recStack.set index true }

def leave (st : Dfs) (index : Nat) : Dfs := { st with recStack := st.recStack.set index false }

theorem visited_enter (h : st.Ordered depMatrix n) (hindex : index < n) {i : Nat} :
    (st.enter index).Visited i ↔ i = index ∨ st.Visited i :=
  getElem?_mark (h.visited_length ▸ hindex)

theorem onStack_enter (h : st.Ordered depMatrix n) (hindex : index < n) {i : Nat} :
    (st.enter index).OnStack i ↔ i = index ∨ st.OnStack i :=
  getElem?_mark (h.recStack_length ▸ hindex)

theorem onStack_leave {i : Nat} : (st.leave index).OnStack i ↔ i ≠ index ∧ st.OnStack i := by
  rw [OnStack, OnStack, leave, List.getElem?_set]
  split
  · split <;> simp_all
  · simp_all [eq_comm]

theorem not_visited_iff (h : st.Ordered depMatrix n) (hindex : index < n) :
    ¬ st.Visited index ↔ st.visited[index]? = some false :=
  not_marked_iff (h.visited_length ▸ hindex)

theorem unvisited_enter (h : st.Ordered depMatrix n) (hindex : index < n)
    (hnew : ¬ st.Visited index) : (st.enter index).unvisited + 1 = st.unvisited :=
  count_mark (h.visited_length ▸ hindex) hnew

theorem ordered_enter (h : st.Ordered depMatrix n) (hindex : index < n)
    (hnew : ¬ st.Visited index) : (st.enter index).Ordered depMatrix n where
  visited_length := by rw [enter, List.length_set, h.visited_length]
  recStack_length := by rw [enter, List.length_set, h.recStack_length]
  visited i hi := by
    rw [visited_enter h hindex]
    exact ((onStack_enter h hindex).mp hi).imp_right (h.visited i)
  finished := by
    have hleft : (st.enter index).left = st.left := by
      ext i
      simp only [left, Set.mem_ofPred_eq, visited_enter h hindex, onStack_enter h hindex]
      by_cases hi : i = index
      · simp [hi, hnew]
      · simp [hi]
    exact hleft ▸ h.finished

theorem extends_leave (h : st.Ordered depMatrix n) (hindex : index < n)
    (hnew : ¬ st.Visited index) (hext : (st.enter index).Extends depMatrix n st')
    (hsucc : ∀ d, DependsOn depMatrix index d → d ∈ st'.left) :
    st.Extends depMatrix n (st'.leave index) ∧ index ∈ (st'.leave index).left := by
  have hstack : st'.OnStack index := hext.onStack_iff.mpr ((onStack_enter h hindex).mpr (.inl rfl))
  have hvisited : st'.Visited index := hext.visited index ((visited_enter h hindex).mpr (.inl rfl))
  have hoff : ¬ st.OnStack index := fun hon => hnew (h.visited index hon)
  have hfalse : st.recStack[index]? = some false := by
    obtain ⟨on, hon⟩ : ∃ on, st.recStack[index]? = some on :=
      ⟨_, List.getElem?_eq_getElem (h.recStack_length ▸ hindex)⟩
    rw [OnStack, hon] at hoff
    cases on with
    | false => exact hon
    | true => exact absurd rfl hoff
  have hleft : (st'.leave index).left = insert index st'.left := by
    ext i
    change st'.Visited i ∧ ¬ (st'.leave index).OnStack i ↔ i = index ∨ st'.Visited i ∧ _
    rw [onStack_leave]
    by_cases hi : i = index
    · subst hi
      simp [hvisited]
    · simp [hi]
  refine ⟨⟨⟨hext.ordered.visited_length, ?_, ?_, ?_⟩, ?_, ?_, ?_⟩, ?_⟩
  · rw [leave, List.length_set]
    exact hext.ordered.recStack_length
  · intro i hi
    exact hext.ordered.visited i (onStack_leave.mp hi).2
  · rw [hleft]
    exact hext.ordered.finished.insert (fun hmem => hmem.2 hstack) hsucc
  · change st'.recStack.set index false = st.recStack
    rw [hext.recStack]
    apply List.ext_getElem?
    intro i
    rw [enter, List.set_set, List.getElem?_set]
    split
    case isTrue heq =>
      subst heq
      rw [hfalse, if_pos (h.recStack_length ▸ hindex)]
    case isFalse => rfl
  · intro i hi
    exact hext.visited i ((visited_enter h hindex).mpr (.inr hi))
  · have hlt := unvisited_enter h hindex hnew
    have hle := hext.unvisited_le
    change st'.unvisited ≤ st.unvisited
    omega
  · rw [hleft]
    exact Set.mem_insert _ _

end Dfs

/-! ### The search -/

variable {depMatrix : List (List Nat)} {n index fuel : Nat} {st : Dfs} {row : List Nat}

theorem at?_eq_ok {α : Type} {l : List α} {i : Nat} {a : α} (h : l[i]? = some a) :
    at? l i = .ok a := by
  rw [at?, h]

theorem checkRow_outcome {visit : Nat → Dfs → Except Fault (Bool × Dfs)} {before : List Nat}
    (hlength : depMatrix.length = n)
    (hvisit : ∀ d < n, ∀ st : Dfs, st.Ordered depMatrix n → ¬ st.Visited d →
      (∀ j, st.OnStack j → TransGen (ComesTo depMatrix) j d) → st.unvisited ≤ fuel →
      st.Outcome depMatrix n d [d] (visit d st))
    (hst : st.Ordered depMatrix n) (hrow : depMatrix[index]? = some (before ++ row))
    (hbefore : ∀ c ∈ before, c ∈ st.left)
    (hpath : ∀ j, st.OnStack j → ReflTransGen (ComesTo depMatrix) j index)
    (hfuel : st.unvisited ≤ fuel) : st.Outcome depMatrix n index row (checkRow visit row st) := by
  induction row generalizing st before with
  | nil => exact .returns (.refl hst) (by simp)
  | cons d rest ih =>
      have hclean : ∀ c ∈ before, Clean depMatrix c := fun c hc =>
        Dfs.clean_of_left hlength hst (hbefore c hc)
      have hedge : ComesTo depMatrix index d := ⟨before, rest, hrow, hclean⟩
      have hto : ∀ j, st.OnStack j → TransGen (ComesTo depMatrix) j d :=
        fun j hj => TransGen.tail' (hpath j hj) hedge
      -- What follows the recursive call, when this has come back.
      have hnext : ∀ st' : Dfs, st.Extends depMatrix n st' → d < n → st'.Visited d →
          st.Outcome depMatrix n index (d :: rest) (do
            if ← at? st'.recStack d then return (true, st')
            checkRow visit rest st') := by
        intro st' hext hd hvisited
        obtain ⟨on, hon⟩ : ∃ on, st'.recStack[d]? = some on :=
          ⟨_, List.getElem?_eq_getElem (hext.ordered.recStack_length ▸ hd)⟩
        rw [at?_eq_ok hon]
        cases on with
        | true =>
            have hback := hpath d (hext.onStack_iff.mp hon)
            exact .loops ⟨index, .refl, (transGen_self_of_edge hback hedge).1⟩
        | false =>
            have hleft : d ∈ st'.left := ⟨hvisited, by simp [Dfs.OnStack, hon]⟩
            have hrest := @ih st' (before ++ [d]) hext.ordered (by rw [hrow]; simp)
              (fun c hc => (List.mem_append.mp hc).elim (fun hc => hext.left_subset (hbefore c hc))
                fun hc => (List.mem_singleton.mp hc) ▸ hleft)
              (fun j hj => hpath j (hext.onStack_iff.mp hj)) (hext.unvisited_le.trans hfuel)
            change st.Outcome depMatrix n index (d :: rest) (checkRow visit rest st')
            generalize checkRow visit rest st' = result at hrest
            cases hrest with
            | leaves h => exact .leaves h
            | loops h => exact .loops h
            | returns hext' htasks =>
                exact .returns (hext.trans hext')
                  (List.forall_mem_cons.mpr ⟨hext'.left_subset hleft, htasks⟩)
      rw [checkRow]
      by_cases hd : d < n
      case neg =>
        have hout : at? st.visited d = .error .outOfRange := by
          rw [at?, List.getElem?_eq_none (by rw [hst.visited_length]; omega)]
        rw [hout]
        exact .leaves (.row hrow hclean (.outside (List.getElem?_eq_none (by omega))))
      case pos =>
      by_cases hseen : st.Visited d
      · rw [at?_eq_ok hseen]
        exact hnext st (.refl hst) hd hseen
      · rw [at?_eq_ok ((Dfs.not_visited_iff hst hd).mp hseen)]
        have hcall := hvisit d hd st hst hseen hto hfuel
        generalize visit d st = result at hcall
        cases hcall with
        | leaves h =>
            simp only [Bool.false_eq_true, if_false, bind, Except.bind]
            exact .leaves (.row hrow hclean h)
        | loops h =>
            obtain ⟨j, hfrom, hcycle⟩ := h
            simp only [Bool.false_eq_true, if_false, bind, Except.bind]
            exact .loops ⟨j, hfrom.head hedge, hcycle⟩
        | returns hext hleft =>
            have hrest := hnext _ hext hd (hleft d (by simp)).1
            simpa only [Bool.false_eq_true, if_false, bind, Except.bind] using hrest

/-- **The search from a task** that all tasks on the stack come to. -/
theorem checkCyclicDependencies_outcome (hlength : depMatrix.length = n) (hindex : index < n)
    (hst : st.Ordered depMatrix n) (hnew : ¬ st.Visited index)
    (hpath : ∀ j, st.OnStack j → TransGen (ComesTo depMatrix) j index)
    (hfuel : st.unvisited ≤ fuel) :
    st.Outcome depMatrix n index [index] (checkCyclicDependencies depMatrix fuel index st) := by
  induction fuel generalizing index st with
  | zero =>
      have hpos := Dfs.unvisited_enter hst hindex hnew
      omega
  | succ fuel ih =>
      obtain ⟨row, hrow⟩ : ∃ row, depMatrix[index]? = some row :=
        ⟨_, List.getElem?_eq_getElem (hlength ▸ hindex)⟩
      have hcount := Dfs.unvisited_enter hst hindex hnew
      have hloop : (st.enter index).Outcome depMatrix n index row
          (checkRow (checkCyclicDependencies depMatrix fuel) row (st.enter index)) := by
        refine @checkRow_outcome _ _ _ fuel _ _ _ [] hlength
          (fun d hd st hst hnew hto hle => ih hd hst hnew hto hle)
          (Dfs.ordered_enter hst hindex hnew) hrow (by simp) (fun j hj => ?_) (by omega)
        obtain rfl | hj := (Dfs.onStack_enter hst hindex).mp hj
        · exact .refl
        · exact (hpath j hj).to_reflTransGen
      have hvisit : checkCyclicDependencies depMatrix (fuel + 1) index st
          = (checkRow (checkCyclicDependencies depMatrix fuel) row (st.enter index)).bind
            fun after => if after.1 then .ok (true, after.2) else .ok (false, after.2.leave index) := by
        rw [checkCyclicDependencies, at?_eq_ok ((Dfs.not_visited_iff hst hindex).mp hnew),
          at?_eq_ok hrow]
        rfl
      rw [hvisit]
      generalize checkRow (checkCyclicDependencies depMatrix fuel) row (st.enter index) = result
        at hloop
      cases hloop with
      | leaves h => exact .leaves h
      | loops h => exact .loops h
      | @returns st' hext htasks =>
          have hsucc : ∀ d, DependsOn depMatrix index d → d ∈ st'.left := by
            rintro d ⟨row', hrow', hd⟩
            obtain rfl := Option.some.inj (hrow.symm.trans hrow')
            exact htasks d hd
          obtain ⟨hleave, hleft⟩ := Dfs.extends_leave hst hindex hnew hext hsucc
          exact .returns hleave (by simpa using hleft)

theorem leave_eq_self (h : ∀ j, ¬ st.OnStack j) : st.leave index = st := by
  have hrec : st.recStack.set index false = st.recStack := by
    apply List.ext_getElem?
    intro i
    rw [List.getElem?_set]
    split
    case isTrue heq =>
      subst heq
      have hoff := h index
      rw [Dfs.OnStack] at hoff
      cases hon : st.recStack[index]? with
      | none => rw [if_neg (not_lt.mpr (List.getElem?_eq_none_iff.mp hon))]
      | some on =>
          rw [if_pos (List.getElem?_eq_some_iff.mp hon).1]
          cases on with
          | false => rfl
          | true => exact absurd hon hoff
    case isFalse => rfl
  rw [Dfs.leave, hrec]

/-- What the check finds, at the first task from which the search does not come back. -/
inductive CheckOutcome (depMatrix : List (List Nat)) (n : Nat) : Except Fault Bool → Prop
  | leaves {k : Nat} (hk : k < n) (hbefore : ∀ j < k, Clean depMatrix j)
      (h : LeavesFirst depMatrix k) : CheckOutcome depMatrix n (.error .outOfRange)
  | loops {k : Nat} (hk : k < n) (hbefore : ∀ j < k, Clean depMatrix j) (h : Loops depMatrix k) :
      CheckOutcome depMatrix n (.ok true)
  | clean (h : ∀ j < n, Clean depMatrix j) : CheckOutcome depMatrix n (.ok false)

theorem checkFrom_outcome (hlength : depMatrix.length = n) {k rest : Nat} (hk : k + rest = n)
    (hst : st.Ordered depMatrix n) (hempty : ∀ j, ¬ st.OnStack j) (hfuel : st.unvisited ≤ fuel)
    (hbefore : ∀ j < k, j ∈ st.left) :
    CheckOutcome depMatrix n (checkFrom depMatrix (fuel + 1) (List.range' k rest) st) := by
  have hclean : ∀ j < k, Clean depMatrix j := fun j hj =>
    Dfs.clean_of_left hlength hst (hbefore j hj)
  induction rest generalizing st k with
  | zero => exact .clean fun j hj => hclean j (by omega)
  | succ rest ih =>
      rw [List.range'_succ, checkFrom]
      have hnext : ∀ st' : Dfs, st.Extends depMatrix n st' → k ∈ st'.left →
          CheckOutcome depMatrix n (checkFrom depMatrix (fuel + 1) (List.range' (k + 1) rest) st') := by
        intro st' hext hleft
        have hbefore' : ∀ j < k + 1, j ∈ st'.left := by
          intro j hj
          obtain hj | rfl := Nat.lt_succ_iff_lt_or_eq.mp hj
          · exact hext.left_subset (hbefore j hj)
          · exact hleft
        exact ih (by omega) hext.ordered (fun j hj => hempty j (hext.onStack_iff.mp hj))
          (hext.unvisited_le.trans hfuel) hbefore' fun j hj =>
            Dfs.clean_of_left hlength hext.ordered (hbefore' j hj)
      by_cases hseen : st.Visited k
      · have hskip : checkCyclicDependencies depMatrix (fuel + 1) k st = .ok (false, st) := by
          rw [checkCyclicDependencies, at?_eq_ok hseen]
          exact congrArg (fun st => Except.ok (false, st)) (leave_eq_self hempty)
        rw [hskip]
        exact hnext st (.refl hst) ⟨hseen, hempty k⟩
      · have hsearch := @checkCyclicDependencies_outcome depMatrix n k (fuel + 1) st hlength
          (by omega) hst hseen (fun j hj => absurd hj (hempty j)) (by omega)
        generalize checkCyclicDependencies depMatrix (fuel + 1) k st = result at hsearch
        cases hsearch with
        | leaves h => exact .leaves (by omega) hclean h
        | loops h => exact .loops (by omega) hclean h
        | returns hext hleft => exact hnext _ hext (hleft k (by simp))

theorem hasCyclicDependencies_outcome (hlength : depMatrix.length = n) :
    CheckOutcome depMatrix n (hasCyclicDependencies n depMatrix) := by
  rw [hasCyclicDependencies]
  split
  case isTrue hn => exact .clean (by omega)
  split
  case isTrue hempty =>
    rw [List.isEmpty_iff] at hempty
    exact .clean fun j hj => absurd hj (by simp [← hlength, hempty])
  have hoff : ∀ j : Nat, ¬ (List.replicate n false)[j]? = some true := by
    intro j hj
    have hmem := List.mem_of_getElem? hj
    simp at hmem
  rw [List.range_eq_range']
  refine checkFrom_outcome hlength (Nat.zero_add n) ⟨by simp, by simp, ?_, ?_⟩ hoff ?_ (by simp)
  · exact fun i hi => absurd hi (hoff i)
  · have hleft : Dfs.left ⟨List.replicate n false, List.replicate n false⟩ = ∅ :=
      Set.eq_empty_of_forall_notMem fun i hi => hoff i hi.1
    exact hleft ▸ finished_empty
  · simp [Dfs.unvisited]

theorem Loops.hasCycle {i : Nat} (h : Loops depMatrix i) : HasCycle depMatrix := by
  obtain ⟨j, -, hcycle⟩ := h
  exact ⟨j, dependsOn_of_comesTo hcycle⟩

theorem not_hasCycle_of_clean (hlength : depMatrix.length = n) (h : ∀ j < n, Clean depMatrix j) :
    ¬ HasCycle depMatrix := by
  rintro ⟨i, hcycle⟩
  obtain ⟨d, ⟨row, hrow, -⟩, -⟩ := TransGen.head'_iff.mp hcycle
  have hi : i < n := hlength ▸ (List.getElem?_eq_some_iff.mp hrow).1
  exact (h i hi).not_cyclic hcycle

/-- The search does not leave a matrix whose entries all have a row. -/
theorem not_leavesFirst (hlength : depMatrix.length = n)
    (hlt : ∀ row ∈ depMatrix, ∀ d ∈ row, d < n) {i : Nat} (hi : i < n) :
    ¬ LeavesFirst depMatrix i := by
  intro h
  induction h with
  | outside hnone => exact absurd (List.getElem?_eq_none_iff.mp hnone) (by omega)
  | row hrow hbefore hd ih =>
      exact ih (hlt _ (List.mem_of_getElem? hrow) _ (by simp))

theorem hasCyclicDependencies_of_clean (hlength : depMatrix.length = n)
    (h : ∀ j < n, Clean depMatrix j) : hasCyclicDependencies n depMatrix = .ok false := by
  have houtcome := hasCyclicDependencies_outcome hlength
  generalize hasCyclicDependencies n depMatrix = result at houtcome ⊢
  cases houtcome with
  | leaves hk hbefore hleaves => exact absurd (h _ hk) hleaves.not_clean
  | loops hk hbefore hloops => exact absurd hloops (h _ hk).not_loops
  | clean h => rfl

/-- The check of a matrix whose entries all have a row is a test for cycles. -/
theorem hasCyclicDependencies_of_lt (hlength : depMatrix.length = n)
    (hlt : ∀ row ∈ depMatrix, ∀ d ∈ row, d < n) :
    ∃ cyclic, hasCyclicDependencies n depMatrix = .ok cyclic
      ∧ (cyclic = true ↔ HasCycle depMatrix) := by
  have houtcome := hasCyclicDependencies_outcome hlength
  generalize hasCyclicDependencies n depMatrix = result at houtcome
  cases houtcome with
  | leaves hk hbefore h => exact absurd h (not_leavesFirst hlength hlt hk)
  | loops hk hbefore h => exact ⟨true, rfl, iff_of_true rfl h.hasCycle⟩
  | clean h => exact ⟨false, rfl, iff_of_false (by simp) (not_hasCycle_of_clean hlength h)⟩

/-- **The check is a test for cycles**, and its recursion ends. -/
theorem hasCyclicDependencies_spec (n : Nat) (depMatrix : List (List Nat))
    (hlength : depMatrix.length = n) (hlt : ∀ row ∈ depMatrix, ∀ d ∈ row, d < n) :
    ∃ cyclic, hasCyclicDependencies n depMatrix = .ok cyclic
      ∧ (cyclic = true ↔ HasCycle depMatrix) :=
  hasCyclicDependencies_of_lt hlength hlt

/-- Two tasks that wait for each other behind a third. -/
theorem hasCyclicDependencies_spec_mutual :
    ∃ cyclic, hasCyclicDependencies 3 [[1], [2], [1]] = .ok cyclic
      ∧ (cyclic = true ↔ HasCycle [[1], [2], [1]]) :=
  hasCyclicDependencies_spec 3 [[1], [2], [1]] rfl (by decide)

end DshLmc
