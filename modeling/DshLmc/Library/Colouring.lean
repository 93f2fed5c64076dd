import Mathlib.Data.Fintype.Card
import Mathlib.Data.List.Count
import Mathlib.Data.Set.Finite.Basic
import Mathlib.Data.Set.Insert
import Mathlib.Logic.Relation

/-!
# The finished vertices of a depth-first search

A depth-first search leaves a vertex when it has left all successors. The vertices it has left are
closed under the edges and on no cycle, and leaving one more keeps this. A cycle shows up as an edge
back to a vertex that is still being searched from. The graph is any relation. A search that keeps
its marks in a list of flags ends because it sets a flag that was not set.
-/

namespace DshLmc

open Relation

variable {α : Type*} {E : α → α → Prop} {left : Set α} {x y : α}

/-- The vertices that a search has left. -/
structure Finished (E : α → α → Prop) (left : Set α) : Prop where
  closed : ∀ x ∈ left, ∀ y, E x y → y ∈ left
  acyclic : ∀ x ∈ left, ¬ TransGen E x x

theorem finished_empty : Finished E ∅ := ⟨fun _ hx => hx.elim, fun _ hx => hx.elim⟩

theorem Finished.mem_of_transGen (h : Finished E left) (hx : x ∈ left) (hxy : TransGen E x y) :
    y ∈ left := by
  induction hxy with
  | single hedge => exact h.closed _ hx _ hedge
  | tail _ hedge ih => exact h.closed _ ih _ hedge

/-- A cycle through a vertex whose successors are all left would lead back into what is left. -/
theorem Finished.insert (h : Finished E left) (hx : x ∉ left) (hsucc : ∀ y, E x y → y ∈ left) :
    Finished E (insert x left) where
  closed z hz y hedge := by
    obtain rfl | hz := hz
    · exact Or.inr (hsucc y hedge)
    · exact Or.inr (h.closed z hz y hedge)
  acyclic z hz hcycle := by
    obtain rfl | hz := hz
    · obtain ⟨y, hedge, hpath⟩ := TransGen.head'_iff.mp hcycle
      obtain heq | hpath := reflTransGen_iff_eq_or_transGen.mp hpath
      · exact hx (heq ▸ hsucc y hedge)
      · exact hx (h.mem_of_transGen (hsucc y hedge) hpath)
    · exact h.acyclic z hz hcycle

/-- An edge back closes a cycle through both its ends. -/
theorem transGen_self_of_edge (hpath : ReflTransGen E y x) (hedge : E x y) :
    TransGen E x x ∧ TransGen E y y :=
  ⟨TransGen.head' hedge hpath, TransGen.tail' hpath hedge⟩

/-- Every path from a vertex that is left ends, if there are finitely many. -/
theorem Finished.acc (h : Finished E left) (hfinite : left.Finite) (hx : x ∈ left) :
    Acc (fun y x => E x y) x := by
  have := hfinite.to_subtype
  let after (y x : left) : Prop := TransGen E x y
  have : IsTrans left after := ⟨fun _ _ _ hyx hzy => hzy.trans hyx⟩
  have : Std.Irrefl after := ⟨fun x => h.acyclic x x.2⟩
  have hwf : WellFounded after := Finite.wellFounded_of_trans_of_irrefl after
  suffices hall : ∀ x : left, Acc (fun y x => E x y) x.1 from hall ⟨x, hx⟩
  intro x
  induction x using hwf.induction with
  | _ x ih => exact ⟨_, fun y hedge => ih ⟨y, h.closed x x.2 y hedge⟩ (.single hedge)⟩

section Flags

variable {flags : List Bool} {i index : Nat}

theorem getElem?_mark (hindex : index < flags.length) :
    (flags.set index true)[i]? = some true ↔ i = index ∨ flags[i]? = some true := by
  rw [List.getElem?_set, if_pos hindex]
  split <;> simp_all [eq_comm]

theorem not_marked_iff (hindex : index < flags.length) :
    ¬ flags[index]? = some true ↔ flags[index]? = some false := by
  rw [List.getElem?_eq_getElem hindex]
  cases flags[index] <;> simp

/-- A flag that is set is one less to set. -/
theorem count_mark (hindex : index < flags.length) (hnew : ¬ flags[index]? = some true) :
    (flags.set index true).count false + 1 = flags.count false := by
  have hfalse : flags[index] = false := by
    have hsome := (not_marked_iff hindex).mp hnew
    rw [List.getElem?_eq_getElem hindex] at hsome
    exact Option.some.inj hsome
  have hpos := List.count_pos_iff.mpr (hfalse ▸ List.getElem_mem hindex)
  rw [List.count_set hindex, hfalse]
  simp only [beq_self_eq_true, if_true, Bool.true_beq, Bool.false_eq_true, if_false]
  omega

end Flags

end DshLmc
