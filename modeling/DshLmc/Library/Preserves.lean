import DshLmc.Library.Outcome

/-!
# Invariants of computations that may throw

A command changes a state and may throw, in which case the changes it has made stay. `Preserves I m`
says that `m` keeps `I` in any case, and has one rule for each way a computation is put together.
-/

namespace DshLmc

variable {ε σ α β : Type} {I : σ → Prop}

/-- A change of the state, or an error and no change. -/
def attempt (f : σ → Except ε σ) : ExceptT ε (StateM σ) Unit := fun s =>
  match f s with
  | .ok s' => (.ok (), s')
  | .error e => (.error e, s)

/-- A question to the state. -/
def inquire (f : σ → Except ε α) : ExceptT ε (StateM σ) α := fun s => (f s, s)

theorem run_attempt_ok {f : σ → Except ε σ} {s s' : σ} (h : f s = .ok s') :
    (attempt f).run.run s = (.ok (), s') := by
  change (match f s with | .ok s' => (Except.ok (), s') | .error e => (.error e, s)) = _
  rw [h]

/-- `m` keeps `I`, whether it returns or throws. -/
def Preserves (I : σ → Prop) (m : ExceptT ε (StateM σ) α) : Prop := ∀ s, I s → I (m.run.run s).2

/-- `m` keeps `I`, and what it returns meets `Q`. -/
def Ensures (I : σ → Prop) (m : ExceptT ε (StateM σ) α) (Q : α → Prop) : Prop :=
  ∀ s, I s → I (m.run.run s).2 ∧ ∀ a, (m.run.run s).1 = .ok a → Q a

namespace Preserves

theorem pure (a : α) : Preserves I (Pure.pure a : ExceptT ε (StateM σ) α) := fun _ h => h

theorem throw (e : ε) : Preserves I (MonadExcept.throw e : ExceptT ε (StateM σ) α) := fun _ h => h

theorem inquire (f : σ → Except ε α) : Preserves I (inquire f) := fun _ h => h

theorem attempt {f : σ → Except ε σ} (hf : ∀ s s', I s → f s = .ok s' → I s') :
    Preserves I (attempt f) := by
  intro s hs
  change I (match f s with | .ok s' => (Except.ok (), s') | .error e => (.error e, s)).2
  cases hfs : f s with
  | error e => exact hs
  | ok s' => exact hf s s' hs hfs

theorem modify {f : σ → σ} (hf : ∀ s, I s → I (f s)) :
    Preserves I (modify f : ExceptT ε (StateM σ) Unit) := fun s hs => hf s hs

/-- What comes after a result may use what is ensured of it. -/
theorem bind_of_ensures {m : ExceptT ε (StateM σ) α} {Q : α → Prop}
    {f : α → ExceptT ε (StateM σ) β} (hm : Ensures I m Q) (hf : ∀ a, Q a → Preserves I (f a)) :
    Preserves I (m >>= f) := by
  intro s hs
  obtain ⟨hs', hQ⟩ := hm s hs
  rw [run_bind_eq]
  rcases hrun : m.run.run s with ⟨outcome, s'⟩
  rw [hrun] at hs' hQ
  cases outcome with
  | error e => exact hs'
  | ok a => exact hf a (hQ a rfl) s' hs'

theorem bind {m : ExceptT ε (StateM σ) α} {f : α → ExceptT ε (StateM σ) β} (hm : Preserves I m)
    (hf : ∀ a, Preserves I (f a)) : Preserves I (m >>= f) :=
  bind_of_ensures (Q := fun _ => True) (fun s hs => ⟨hm s hs, fun _ _ => trivial⟩) fun a _ => hf a

theorem ite {p : Prop} [Decidable p] {m m' : ExceptT ε (StateM σ) α} (hm : Preserves I m)
    (hm' : Preserves I m') : Preserves I (if p then m else m') := by
  split
  · exact hm
  · exact hm'

theorem tryCatch {m : ExceptT ε (StateM σ) α} {f : ε → ExceptT ε (StateM σ) α} (hm : Preserves I m)
    (hf : ∀ e, Preserves I (f e)) : Preserves I (MonadExcept.tryCatch m f) := by
  intro s hs
  have hs' := hm s hs
  rcases hrun : m.run.run s with ⟨outcome, s'⟩
  rw [hrun] at hs'
  have hms : m s = (outcome, s') := hrun
  change I ((match (m s).1 with
    | .ok a => (Pure.pure (.ok a) : StateM σ (Except ε α))
    | .error e => f e) (m s).2).2
  rw [hms]
  cases outcome with
  | error e => exact hf e s' hs'
  | ok a => exact hs'

theorem forM {l : List α} {f : α → ExceptT ε (StateM σ) PUnit} (hf : ∀ a ∈ l, Preserves I (f a)) :
    Preserves I (l.forM f) := by
  induction l with
  | nil => exact pure PUnit.unit
  | cons a l ih =>
      exact bind (hf a List.mem_cons_self) fun _ => ih fun b hb => hf b (List.mem_cons_of_mem a hb)

end Preserves

end DshLmc
