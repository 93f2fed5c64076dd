import Mathlib.Logic.Basic

/-!
# Folds that write one value through some of their steps

A loop over several places often does the same thing to an observed value at the places that match
and leaves it alone at the others. When doing it twice is doing it once, the loop does it exactly
when some place matches.
-/

namespace DshLmc

variable {σ ι β : Type*} {f : σ → ι → σ}

/-- **The effect of a loop.** The places that match are judged once, by a condition `hit` that
holds of every state the loop goes through. -/
theorem foldl_effect (R : σ → Prop) (get : σ → β) (g : β → β) {hit : ι → Prop}
    [DecidablePred hit] (hg : ∀ b, g (g b) = g b) (hkeep : ∀ s i, R s → R (f s i))
    (hstep : ∀ s i, R s → get (f s i) = if hit i then g (get s) else get s) {s : σ} (hs : R s)
    (places : List ι) :
    get (places.foldl f s) = if ∃ i ∈ places, hit i then g (get s) else get s := by
  induction places generalizing s with
  | nil => simp
  | cons i rest ih =>
      rw [List.foldl_cons, ih (hkeep s i hs), hstep s i hs]
      by_cases hi : hit i
      · have hany : ∃ j ∈ i :: rest, hit j := ⟨i, List.mem_cons_self, hi⟩
        by_cases hrest : ∃ j ∈ rest, hit j
        · simp only [hi, hrest, hany, if_true, hg]
        · simp only [hi, hrest, hany, if_true, if_false]
      · by_cases hrest : ∃ j ∈ rest, hit j
        · obtain ⟨j, hj, hhit⟩ := hrest
          have hany : ∃ j ∈ i :: rest, hit j := ⟨j, List.mem_cons_of_mem _ hj, hhit⟩
          have hrest : ∃ j ∈ rest, hit j := ⟨j, hj, hhit⟩
          simp only [hi, hrest, hany, if_true, if_false]
        · have hnone : ¬ ∃ j ∈ i :: rest, hit j := by
            rintro ⟨j, hj, hhit⟩
            obtain rfl | hj := List.mem_cons.mp hj
            · exact hi hhit
            · exact hrest ⟨j, hj, hhit⟩
          simp only [hi, hrest, hnone, if_false]

end DshLmc
