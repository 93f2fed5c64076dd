import Mathlib.Data.List.Induction

/-!
# Runs of a step function

A system is a step function: from a state and an input it computes the next state. A run folds it
over a list of inputs. Two rules carry the results of the development. `run_invariant` is the usual
induction, except that a step only has to preserve the invariant when it meets a side condition, so
it also says what holds in every run *whose steps all meet the condition*. `run_history` is the same
induction for facts that depend on the inputs consumed so far.
-/

namespace DshLmc

variable {σ ι : Type*} (step : σ → ι → σ)

/-- The state a list of inputs leads to. -/
def run (s : σ) (inputs : List ι) : σ := inputs.foldl step s

@[simp]
theorem run_nil (s : σ) : run step s [] = s := rfl

@[simp]
theorem run_cons (s : σ) (i : ι) (rest : List ι) :
    run step s (i :: rest) = run step (step s i) rest := rfl

@[simp]
theorem run_append (s : σ) (first second : List ι) :
    run step s (first ++ second) = run step (run step s first) second := by
  simp [run]

/-- Every step of the run meets `C` in the state it starts from. -/
def Along (C : σ → ι → Prop) : σ → List ι → Prop
  | _, [] => True
  | s, i :: rest => C s i ∧ Along C (step s i) rest

variable {step} {C D : σ → ι → Prop} {s : σ}

@[simp]
theorem along_nil : Along step C s [] := trivial

@[simp]
theorem along_cons {i : ι} {rest : List ι} :
    Along step C s (i :: rest) ↔ C s i ∧ Along step C (step s i) rest := Iff.rfl

@[simp]
theorem along_append {first second : List ι} :
    Along step C s (first ++ second)
      ↔ Along step C s first ∧ Along step C (run step s first) second := by
  induction first generalizing s with
  | nil => simp
  | cons i rest ih => simp [ih, and_assoc]

instance decidableAlong [∀ s i, Decidable (C s i)] :
    ∀ (s : σ) (inputs : List ι), Decidable (Along step C s inputs)
  | _, [] => .isTrue trivial
  | s, i :: rest =>
      have := decidableAlong (step s i) rest
      inferInstanceAs (Decidable (C s i ∧ Along step C (step s i) rest))

theorem Along.mono (hCD : ∀ s i, C s i → D s i) {inputs : List ι} (h : Along step C s inputs) :
    Along step D s inputs := by
  induction inputs generalizing s with
  | nil => trivial
  | cons i rest ih => exact ⟨hCD _ _ h.1, ih h.2⟩

theorem Along.and {inputs : List ι} (hC : Along step C s inputs) (hD : Along step D s inputs) :
    Along step (fun s i => C s i ∧ D s i) s inputs := by
  induction inputs generalizing s with
  | nil => trivial
  | cons i rest ih => exact ⟨⟨hC.1, hD.1⟩, ih hC.2 hD.2⟩

/-- A condition along a run is one on every step of it. -/
theorem along_iff_forall_step {inputs : List ι} :
    Along step C s inputs
      ↔ ∀ past i rest, inputs = past ++ i :: rest → C (run step s past) i := by
  constructor
  · rintro h past i rest rfl
    exact (along_append.mp h).2.1
  · intro h
    induction inputs generalizing s with
    | nil => trivial
    | cons i rest ih =>
        refine ⟨h [] i rest rfl, ih ?_⟩
        rintro past j later rfl
        exact h (i :: past) j later rfl

/-- A condition on the input alone holds along a run when it holds of every input. -/
theorem along_of_forall_mem {P : ι → Prop} {inputs : List ι} (h : ∀ i ∈ inputs, P i) :
    Along step (fun _ i => P i) s inputs := by
  induction inputs generalizing s with
  | nil => trivial
  | cons i rest ih =>
      exact ⟨h i List.mem_cons_self, ih fun j hj => h j (List.mem_cons_of_mem _ hj)⟩

/-- **The invariant rule.** A property that holds at the start and that every step meeting the
condition preserves holds at the end of every run whose steps all meet it. -/
theorem run_invariant {I : σ → Prop} (hstep : ∀ s i, I s → C s i → I (step s i))
    {inputs : List ι} (hstart : I s) (hrun : Along step C s inputs) : I (run step s inputs) := by
  induction inputs generalizing s with
  | nil => exact hstart
  | cons i rest ih => exact ih (hstep s i hstart hrun.1) hrun.2

theorem run_preserves {I : σ → Prop} (hstep : ∀ s i, I s → I (step s i)) (inputs : List ι)
    (hstart : I s) : I (run step s inputs) := by
  induction inputs generalizing s with
  | nil => exact hstart
  | cons i rest ih => exact ih (hstep s i hstart)

/-- **The exact condition.** Of the steps that meet `D`, those that meet `C` as well keep the
invariant, and the others lead out of `P`. Then `P` holds all along a run whose steps meet `D`
exactly when they all meet `C`. -/
theorem forall_prefix_iff_along {I P : σ → Prop} (hP : ∀ s, I s → P s)
    (hstep : ∀ s i, I s → D s i → C s i → I (step s i))
    (hout : ∀ s i, I s → D s i → ¬ C s i → ¬ P (step s i)) {inputs : List ι} (hstart : I s)
    (hD : Along step D s inputs) :
    (∀ past, past <+: inputs → P (run step s past)) ↔ Along step C s inputs := by
  induction inputs generalizing s with
  | nil =>
      refine iff_of_true ?_ along_nil
      intro past hpast
      rw [List.prefix_nil.mp hpast]
      exact hP s hstart
  | cons i rest ih =>
      obtain ⟨hDi, hDrest⟩ := along_cons.mp hD
      rw [along_cons]
      constructor
      · intro hall
        have hC : C s i := by
          by_contra hC
          exact hout s i hstart hDi hC (hall [i] (by simp))
        refine ⟨hC, (ih (hstep s i hstart hDi hC) hDrest).mp ?_⟩
        intro past hpast
        exact hall (i :: past) (List.cons_prefix_cons.mpr ⟨rfl, hpast⟩)
      · rintro ⟨hC, hrest⟩ past hpast
        cases past with
        | nil => exact hP s hstart
        | cons j past =>
            obtain ⟨rfl, htail⟩ := List.cons_prefix_cons.mp hpast
            exact (ih (hstep s j hstart hDi hC) hDrest).mpr hrest past htail

/-- **The history rule.** `I` relates the inputs consumed so far to the state they led to. -/
theorem run_history {I : List ι → σ → Prop} {inputs : List ι} (hstart : I [] s)
    (hstep : ∀ past i, past ++ [i] <+: inputs → I past (run step s past) →
      I (past ++ [i]) (step (run step s past) i)) : I inputs (run step s inputs) := by
  suffices h : ∀ past, past <+: inputs → I past (run step s past) from h inputs List.prefix_rfl
  intro past
  induction past using List.reverseRecOn with
  | nil => exact fun _ => hstart
  | append_singleton past i ih =>
      intro hpre
      have hbefore := ih ((List.prefix_append past [i]).trans hpre)
      simpa using hstep past i hpre hbefore

/-- **The last word.** A property that inputs set and clear holds at the end of a run, if it did not
at the start, exactly when some input set it and none has cleared it since. -/
theorem run_iff_last {I P : σ → Prop} (hI : ∀ s i, I s → I (step s i))
    (hstep : ∀ s i, I s → (P (step s i) ↔ C s i ∨ P s ∧ ¬ D s i)) {inputs : List ι} (hstart : I s)
    (hnot : ¬ P s) :
    P (run step s inputs) ↔ ∃ past i rest, inputs = past ++ i :: rest ∧ C (run step s past) i
      ∧ Along step (fun s i => ¬ D s i) (run step s (past ++ [i])) rest := by
  induction inputs using List.reverseRecOn with
  | nil => exact iff_of_false hnot (by simp)
  | append_singleton inputs j ih =>
      have hend : run step s (inputs ++ [j]) = step (run step s inputs) j := run_append _ _ _ _
      rw [hend, hstep _ _ (run_preserves hI inputs hstart), ih]
      constructor
      · rintro (hset | ⟨⟨past, i, rest, rfl, hset, halong⟩, hkeep⟩)
        · exact ⟨inputs, j, [], rfl, hset, along_nil⟩
        · refine ⟨past, i, rest ++ [j], by simp, hset, along_append.mpr ⟨halong, ?_, along_nil⟩⟩
          rw [← run_append, List.append_assoc, List.singleton_append]
          exact hkeep
      · rintro ⟨past, i, rest, hinputs, hset, halong⟩
        rcases List.eq_nil_or_concat rest with rfl | ⟨rest, k, rfl⟩
        · obtain ⟨rfl, hj⟩ := List.append_inj' hinputs rfl
          obtain rfl : j = i := by simpa using hj
          exact .inl hset
        · rw [List.concat_eq_append] at hinputs halong
          have hsplit : inputs ++ [j] = (past ++ i :: rest) ++ [k] := by simpa using hinputs
          obtain ⟨rfl, hj⟩ := List.append_inj' hsplit rfl
          obtain rfl : j = k := by simpa using hj
          obtain ⟨hrest, hkeep, -⟩ := along_append.mp halong
          refine .inr ⟨⟨past, i, rest, rfl, hset, hrest⟩, ?_⟩
          rw [← run_append, List.append_assoc, List.singleton_append] at hkeep
          exact hkeep

end DshLmc
