import Mathlib.Data.List.Nodup

/-!
# Topological orders

A depth-first search pushes a vertex when it has left everything that the vertex has an edge to. Read
from its top, the stack then lists a vertex before all that it depends on, and written out from the
back it is a topological order. A property that passes from all that a vertex depends on to the
vertex holds of everything on the stack.
-/

namespace DshLmc

variable {α : Type*} {E : α → α → Prop} {stack rest above : List α} {x y : α}

/-- A stack, the top first, onto which each vertex was pushed after all that it has an edge to. -/
inductive Stacked (E : α → α → Prop) : List α → Prop
  | nil : Stacked E []
  | push {x : α} {rest : List α} (hbelow : ∀ y, E x y → y ∈ rest) (hrest : Stacked E rest) :
      Stacked E (x :: rest)

theorem Stacked.of_append (h : Stacked E (above ++ rest)) : Stacked E rest := by
  induction above with
  | nil => exact h
  | cons x above ih =>
      obtain - | ⟨-, habove⟩ := h
      exact ih habove

/-- What a vertex on the stack has an edge to is below it. -/
theorem Stacked.mem_rest (h : Stacked E (above ++ x :: rest)) (hedge : E x y) : y ∈ rest := by
  obtain - | ⟨hbelow, -⟩ := h.of_append
  exact hbelow y hedge

theorem Stacked.closed (h : Stacked E stack) (hx : x ∈ stack) (hedge : E x y) : y ∈ stack := by
  obtain ⟨above, rest, rfl⟩ := List.append_of_mem hx
  exact List.mem_append_right _ (List.mem_cons_of_mem _ (h.mem_rest hedge))

/-- **The order written out from the back.** -/
theorem Stacked.idxOf_lt [DecidableEq α] (h : Stacked E stack) (hnodup : stack.Nodup)
    (hx : x ∈ stack) (hedge : E x y) : stack.reverse.idxOf y < stack.reverse.idxOf x := by
  obtain ⟨above, rest, rfl⟩ := List.append_of_mem hx
  have hy : y ∈ rest := h.mem_rest hedge
  have hnot : x ∉ rest := by
    have hcons := (List.nodup_append.mp hnodup).2.1
    exact (List.nodup_cons.mp hcons).1
  have hreverse : (above ++ x :: rest).reverse = rest.reverse ++ x :: above.reverse := by simp
  rw [hreverse, List.idxOf_append_of_mem (List.mem_reverse.mpr hy),
    List.idxOf_append_of_notMem (by simpa using hnot), List.idxOf_cons_self]
  have hlt := List.idxOf_lt_length_of_mem (List.mem_reverse.mpr hy)
  omega

/-- **The induction rule.** -/
theorem Stacked.forall_mem {P : α → Prop} (h : Stacked E stack)
    (hstep : ∀ x ∈ stack, (∀ y, E x y → P y) → P x) : ∀ x ∈ stack, P x := by
  induction h with
  | nil => simp
  | push hbelow hrest ih =>
      have hP := ih fun x hx => hstep x (List.mem_cons_of_mem _ hx)
      exact List.forall_mem_cons.mpr
        ⟨hstep _ List.mem_cons_self fun y hedge => hP y (hbelow y hedge), hP⟩

end DshLmc
