import Mathlib.Data.Option.Basic

/-!
# Outcomes of computations that log

A computation may throw, and carries a state along. Where the state is only written, its outcome is
the same from every state. `Yields` says what that outcome is, with the errors taken as none, and has
one rule for each way a computation is put together.
-/

namespace DshLmc

variable {ε σ α β : Type}

/-- What follows a computation runs where that one has left the state, unless it has thrown. -/
theorem run_bind_eq (m : ExceptT ε (StateM σ) α) (f : α → ExceptT ε (StateM σ) β) (s : σ) :
    (m >>= f).run.run s = match m.run.run s with
      | (.ok a, s') => (f a).run.run s'
      | (.error e, s') => (.error e, s') := by
  change (ExceptT.bindCont f (m.run.run s).1).run (m.run.run s).2 = _
  rcases m.run.run s with ⟨outcome, s'⟩
  cases outcome <;> rfl

/-- What follows a computation that returns. -/
theorem run_bind_ok {m : ExceptT ε (StateM σ) α} {s s' : σ} {a : α} (h : m.run.run s = (.ok a, s'))
    (f : α → ExceptT ε (StateM σ) β) : (m >>= f).run.run s = (f a).run.run s' := by
  rw [run_bind_eq, h]

/-- A computation that returns has returned first. -/
theorem except_bind_eq_ok_iff {x : Except ε α} {f : α → Except ε β} {b : β} :
    (x >>= f) = .ok b ↔ ∃ a, x = .ok a ∧ f a = .ok b := by
  cases x with
  | error e => exact ⟨nofun, fun ⟨_, h, _⟩ => nomatch h⟩
  | ok a => exact ⟨fun h => ⟨a, rfl, h⟩, fun ⟨_, h, hf⟩ => Except.ok.inj h ▸ hf⟩

theorem except_map_eq_ok_iff {x : Except ε α} {f : α → β} {b : β} :
    x.map f = .ok b ↔ ∃ a, x = .ok a ∧ f a = b := by
  cases x with
  | error e => exact ⟨nofun, fun ⟨_, h, _⟩ => nomatch h⟩
  | ok a => exact ⟨fun h => ⟨a, rfl, Except.ok.inj h⟩, fun ⟨_, h, hf⟩ => Except.ok.inj h ▸ congrArg _ hf⟩

/-- From every state `m` returns what `r` holds, or throws where `r` is none. -/
def Yields (m : ExceptT ε (StateM σ) α) (r : Option α) : Prop := ∀ s, (m.run.run s).1.toOption = r

namespace Yields

theorem congr {m : ExceptT ε (StateM σ) α} {r r' : Option α} (h : Yields m r) (heq : r = r') :
    Yields m r' := heq ▸ h

theorem pure (a : α) : Yields (Pure.pure a : ExceptT ε (StateM σ) α) (some a) := fun _ => rfl

theorem throw (e : ε) : Yields (MonadExcept.throw e : ExceptT ε (StateM σ) α) none := fun _ => rfl

theorem modify (f : σ → σ) : Yields (MonadState.modifyGet fun s => ((), f s) : ExceptT ε (StateM σ) Unit)
    (some ()) := fun _ => rfl

theorem bind {m : ExceptT ε (StateM σ) α} {f : α → ExceptT ε (StateM σ) β} {r : Option α}
    {g : α → Option β} (hm : Yields m r) (hf : ∀ a, r = some a → Yields (f a) (g a)) :
    Yields (m >>= f) (r.bind g) := by
  intro s
  rw [run_bind_eq, ← hm s]
  rcases hms : m.run.run s with ⟨outcome, s'⟩
  cases outcome with
  | error e => rfl
  | ok a => exact hf a (by rw [← hm s, hms]; rfl) s'

theorem ite {p : Prop} [Decidable p] {m m' : ExceptT ε (StateM σ) α} {r r' : Option α}
    (ht : p → Yields m r) (hf : ¬ p → Yields m' r') :
    Yields (if p then m else m') (if p then r else r') := by
  by_cases hp : p
  · simpa only [if_pos hp] using ht hp
  · simpa only [if_neg hp] using hf hp

end Yields

end DshLmc
