import Mathlib.Data.List.Basic
import Mathlib.Data.List.Pairwise
import Mathlib.Order.Nat

/-!
# What is collected in rounds

Each element of a list has a round. Whoever goes through the list once a round, and takes the elements
whose round it is, ends with the elements ordered by round, and by place within a round. Only a list
in which the rounds never fall is collected in its own order.
-/

namespace DshLmc

variable {α : Type*} (round : α → Nat)

/-- What the first `N` rounds collect. -/
def byRounds (N : Nat) (l : List α) : List α :=
  (List.range N).flatMap fun j => l.filter (round · == j)

@[simp]
theorem byRounds_zero (l : List α) : byRounds round 0 l = [] := rfl

theorem byRounds_succ (N : Nat) (l : List α) :
    byRounds round (N + 1) l = byRounds round N l ++ l.filter (round · == N) := by
  simp [byRounds, List.range_succ]

variable {round}

theorem mem_byRounds {N : Nat} {l : List α} {x : α} :
    x ∈ byRounds round N l ↔ x ∈ l ∧ round x < N := by
  simp only [byRounds, List.mem_flatMap, List.mem_range, List.mem_filter, beq_iff_eq]
  constructor
  · rintro ⟨j, hj, hx, rfl⟩
    exact ⟨hx, hj⟩
  · rintro ⟨hx, hN⟩
    exact ⟨round x, hN, hx, rfl⟩

/-- The earlier rounds and the round `N` of a list make up what is below `N + 1`. -/
theorem filter_round_perm (N : Nat) (l : List α) :
    (l.filter (round · < N) ++ l.filter (round · == N)).Perm (l.filter (round · < N + 1)) := by
  have h := List.filter_append_perm (round · < N) (l.filter (round · < N + 1))
  rw [List.filter_filter, List.filter_filter] at h
  convert h using 3
  · funext x
    rw [← Bool.decide_and, decide_eq_decide]
    omega
  · funext x
    rw [← decide_not, ← Bool.decide_and, beq_eq_decide, decide_eq_decide]
    omega

theorem byRounds_perm (N : Nat) (l : List α) :
    (byRounds round N l).Perm (l.filter (round · < N)) := by
  induction N with
  | zero => simp
  | succ N ih =>
      rw [byRounds_succ]
      exact (ih.append_right _).trans (filter_round_perm N l)

/-- Everything was collected if and only if nothing has a later round. -/
theorem length_byRounds_eq_iff {N : Nat} {l : List α} :
    (byRounds round N l).length = l.length ↔ ∀ x ∈ l, round x < N := by
  rw [(byRounds_perm N l).length_eq, List.length_filter_eq_length_iff]
  simp only [decide_eq_true_eq]

/-- Rounds in which nothing is left add nothing. -/
theorem byRounds_of_le {M N : Nat} {l : List α} (h : ∀ x ∈ l, round x < M) (hMN : M ≤ N) :
    byRounds round N l = byRounds round M l := by
  induction N, hMN using Nat.le_induction with
  | base => rfl
  | succ N hMN ih =>
      have hnone : l.filter (round · == N) = [] := by
        rw [List.filter_eq_nil_iff]
        intro x hx
        have := h x hx
        simp only [beq_iff_eq]
        omega
      rw [byRounds_succ, hnone, List.append_nil, ih]

theorem byRounds_pairwise (N : Nat) (l : List α) :
    (byRounds round N l).Pairwise fun x y => round x ≤ round y := by
  induction N with
  | zero => simp
  | succ N ih =>
      rw [byRounds_succ, List.pairwise_append]
      have hlast : ∀ x ∈ l.filter (round · == N), round x = N := fun x hx => by
        simpa using (List.mem_filter.mp hx).2
      refine ⟨ih, List.pairwise_of_forall_mem_list ?_, ?_⟩
      · intro x hx y hy
        simp [hlast x hx, hlast y hy]
      · intro x hx y hy
        rw [hlast y hy]
        exact Nat.le_of_lt (mem_byRounds.mp hx).2

theorem filter_round_of_pairwise {l : List α} (hsorted : l.Pairwise fun x y => round x ≤ round y)
    (N : Nat) :
    l.filter (round · < N) ++ l.filter (round · == N) = l.filter (round · < N + 1) := by
  induction l with
  | nil => rfl
  | cons x l ih =>
      obtain ⟨hx, hl⟩ := List.pairwise_cons.mp hsorted
      rcases Nat.lt_or_ge (round x) N with hlt | hge
      · have hne : round x ≠ N := by omega
        have hle : round x < N + 1 := by omega
        rw [List.filter_cons_of_pos (by simpa using hlt), List.filter_cons_of_neg (by simpa using hne),
          List.filter_cons_of_pos (by simpa using hle), List.cons_append, ih hl]
      · -- nothing behind `x` belongs to an earlier round
        have hnone : l.filter (round · < N) = [] := by
          rw [List.filter_eq_nil_iff]
          intro y hy
          have := hx y hy
          simp only [decide_eq_true_eq]
          omega
        have hrest := ih hl
        rw [hnone, List.nil_append] at hrest
        have hnot : ¬ round x < N := by omega
        simp only [List.filter_cons, hnot, decide_false, hnone, Bool.false_eq_true, if_false,
          List.nil_append, hrest]
        congr 1
        rw [beq_iff_eq, decide_eq_true_eq, eq_iff_iff]
        omega

/-- A list whose rounds never fall is collected in its own order. -/
theorem byRounds_of_pairwise {l : List α} (hsorted : l.Pairwise fun x y => round x ≤ round y)
    {N : Nat} (h : ∀ x ∈ l, round x < N) : byRounds round N l = l := by
  have hfilter : ∀ M, byRounds round M l = l.filter (round · < M) := by
    intro M
    induction M with
    | zero => simp
    | succ M ih => rw [byRounds_succ, ih, filter_round_of_pairwise hsorted]
  rw [hfilter, List.filter_eq_self]
  simpa using h

end DshLmc
