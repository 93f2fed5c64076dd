import DshLmc.Library.Run

/-!
# One component among several

Several components take turns on one state. What a component sees of the others is what its outputs
would be had they not moved. The unwinding conditions are about single steps that meet a side
condition: a step of the component gives the same output from states it cannot tell apart, and leaves
them so, and a step of another component leaves the state as it was, as far as the component can
tell. Then the outputs over a run whose steps all meet the condition depend only on the component's
own inputs.
-/

namespace DshLmc

variable {σ ι ο : Type*} (step : σ → ι → σ) (out : σ → ι → ο) (own : ι → Bool)

/-- The outputs of one component along a run. -/
def outputs : σ → List ι → List ο
  | _, [] => []
  | s, i :: rest =>
      if own i then out s i :: outputs (step s i) rest else outputs (step s i) rest

variable {step out own} {C : σ → ι → Prop}

/-- **The unwinding theorem.** The component does not notice that the others are gone. -/
theorem outputs_eq_outputs_filter (alike : σ → σ → Prop)
    (hout : ∀ s t i, own i = true → alike s t → out s i = out t i)
    (hown : ∀ s t i, own i = true → C s i → alike s t → alike (step s i) (step t i))
    (hother : ∀ s t i, own i = false → C s i → alike s t → alike (step s i) t) {s t : σ}
    {inputs : List ι} (hst : alike s t)
    (hrun : Along step C s inputs) :
    outputs step out own s inputs = outputs step out own t (inputs.filter own) := by
  induction inputs generalizing s t with
  | nil => rfl
  | cons i rest ih =>
      obtain ⟨hfirst, hrest⟩ := hrun
      cases hi : own i with
      | true =>
          rw [List.filter_cons_of_pos hi, outputs, outputs, if_pos hi, if_pos hi,
            hout s t i hi hst]
          exact congrArg _ (ih (hown s t i hi hfirst hst) hrest)
      | false =>
          have hi' : ¬ own i = true := by simp [hi]
          rw [List.filter_cons_of_neg hi', outputs, if_neg hi']
          exact ih (hother s t i hi hfirst hst) hrest

end DshLmc
