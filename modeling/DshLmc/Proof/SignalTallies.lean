import DshLmc.Library.Counted
import DshLmc.Utils.Signals

/-!
# Names and counters of signals

What the lists of signals of the two devices have in common. While no two names are the same without
the domain, the lookup finds the only signal of a name, whichever way it was written. And the counters
are those of the flags, as long as every change of a signal adjusts them.
-/

namespace DshLmc

variable {σ : Type} {l : List σ}

section Lookup

variable {name : σ → List Char} {nd : List Char → List Char} {signame : List Char} {i : Nat}

theorem findSignal_eq_none_iff :
    findSignal name nd l signame = none ↔ ∀ sig ∈ l, nd (name sig) ≠ nd signame := by
  unfold findSignal
  simp only [Option.or_eq_none_iff, List.findIdx?_eq_none_iff, beq_eq_false_iff_ne]
  constructor
  · exact fun h => h.2
  · exact fun h => ⟨fun sig hsig heq => h sig hsig (congrArg nd heq), h⟩

/-- Among names that differ without the domain the first match is the only one. -/
theorem findSignal_eq_some_iff (hnd : (l.map fun sig => nd (name sig)).Nodup) :
    findSignal name nd l signame = some i ↔ ∃ sig, l[i]? = some sig ∧ nd (name sig) = nd signame := by
  have hunique {j : Nat} {sig sig' : σ} (hi : l[i]? = some sig) (hj : l[j]? = some sig')
      (heq : nd (name sig) = nd (name sig')) : i = j := by
    have hij : (l.map fun sig => nd (name sig))[i]? = (l.map fun sig => nd (name sig))[j]? := by
      simp [hi, hj, heq]
    refine (List.getElem?_inj ?_ hnd).mp hij
    simpa using (List.getElem?_eq_some_iff.mp hi).1
  have hfound {j : Nat} (h : findSignal name nd l signame = some j) :
      ∃ sig, l[j]? = some sig ∧ nd (name sig) = nd signame := by
    unfold findSignal at h
    rw [Option.or_eq_some_iff] at h
    rcases h with h | ⟨-, h⟩
    · obtain ⟨hj, heq, -⟩ := List.findIdx?_eq_some_iff_getElem.mp h
      exact ⟨l[j], List.getElem?_eq_getElem hj, congrArg nd (by simpa using heq)⟩
    · obtain ⟨hj, heq, -⟩ := List.findIdx?_eq_some_iff_getElem.mp h
      exact ⟨l[j], List.getElem?_eq_getElem hj, by simpa using heq⟩
  constructor
  · exact hfound
  · rintro ⟨sig, hi, heq⟩
    cases hfind : findSignal name nd l signame with
    | none =>
        exact absurd heq (findSignal_eq_none_iff.mp hfind sig (List.mem_of_getElem? hi))
    | some j =>
        obtain ⟨sig', hj, heq'⟩ := hfound hfind
        rw [hunique hi hj (heq.trans heq'.symm)]

end Lookup

/-- Exactly one of the flags is set. -/
def SignalFlags.One (f : SignalFlags) : Prop :=
  f = ⟨true, false, false⟩ ∨ f = ⟨false, true, false⟩ ∨ f = ⟨false, false, true⟩

theorem SignalFlags.One.running {f : SignalFlags} (h : f.One) (hoff : (f.paused || f.stopped) = false) :
    f.running = true := by
  rcases h with rfl | rfl | rfl
  · rfl
  · cases hoff
  · cases hoff

theorem SignalFlags.One.stopped {f : SignalFlags} (h : f.One) (hoff : (f.running || f.paused) = false) :
    f.stopped = true := by
  rcases h with rfl | rfl | rfl
  · cases hoff
  · cases hoff
  · rfl

/-- The counters go from one signal's flags to others. -/
structure Moves (f f' : SignalFlags) (c c' : SignalCounters) : Prop where
  started : c'.attr_AttributeStartedNumber_read
    = c.attr_AttributeStartedNumber_read - f.running.toInt + f'.running.toInt
  paused : c'.attr_AttributePausedNumber_read
    = c.attr_AttributePausedNumber_read - f.paused.toInt + f'.paused.toInt
  stopped : c'.attr_AttributeStoppedNumber_read
    = c.attr_AttributeStoppedNumber_read - f.stopped.toInt + f'.stopped.toInt
  number : c'.attr_AttributeNumber_read = c.attr_AttributeNumber_read
  one : f.One → f'.One

theorem moves_same (f : SignalFlags) (c : SignalCounters) : Moves f f c c := by
  constructor <;> simp

theorem moves_start (f : SignalFlags) (c : SignalCounters) : Moves f f.start c (c.start f) := by
  rcases f with ⟨running, paused, stopped⟩
  cases running
  · constructor <;> simp [SignalFlags.start, SignalCounters.start, SignalFlags.One]
  · constructor <;> simp [SignalFlags.start, SignalCounters.start, SignalFlags.One]

theorem moves_pause (f : SignalFlags) (c : SignalCounters) : Moves f f.pause c (c.pause f) := by
  rcases f with ⟨running, paused, stopped⟩
  cases paused
  · constructor <;> simp [SignalFlags.pause, SignalCounters.pause, SignalFlags.One]
  · constructor <;> simp [SignalFlags.pause, SignalCounters.pause, SignalFlags.One]

theorem moves_stop (f : SignalFlags) (c : SignalCounters) : Moves f f.stop c (c.stop f) := by
  rcases f with ⟨running, paused, stopped⟩
  cases stopped
  · constructor <;> simp [SignalFlags.stop, SignalCounters.stop, SignalFlags.One]
  · constructor <;> simp [SignalFlags.stop, SignalCounters.stop, SignalFlags.One]

/-- The counters are right, and every signal has one flag. -/
structure Tallied (flags : σ → SignalFlags) (c : SignalCounters) (l : List σ) : Prop where
  started : Counted (fun sig => (flags sig).running) c.attr_AttributeStartedNumber_read l
  paused : Counted (fun sig => (flags sig).paused) c.attr_AttributePausedNumber_read l
  stopped : Counted (fun sig => (flags sig).stopped) c.attr_AttributeStoppedNumber_read l
  number : c.attr_AttributeNumber_read = l.length
  one : ∀ sig ∈ l, (flags sig).One

namespace Tallied

variable {flags : σ → SignalFlags} {c c' : SignalCounters} {sig : σ} {i : Nat}

theorem nil : Tallied flags ⟨0, 0, 0, 0⟩ [] :=
  ⟨Counted.nil, Counted.nil, Counted.nil, rfl, nofun⟩

theorem modify (h : Tallied flags c l) (hsig : l[i]? = some sig) {change : σ → σ}
    (hmoves : Moves (flags sig) (flags (change sig)) c c') : Tallied flags c' (l.modify i change) where
  started := by
    rw [hmoves.started]
    exact h.started.modify hsig change
  paused := by
    rw [hmoves.paused]
    exact h.paused.modify hsig change
  stopped := by
    rw [hmoves.stopped]
    exact h.stopped.modify hsig change
  number := by rw [hmoves.number, h.number, List.length_modify]
  one := by
    intro sig' hsig'
    obtain ⟨j, hj⟩ := List.mem_iff_getElem?.mp hsig'
    rw [List.getElem?_modify] at hj
    split at hj
    · rename_i hij
      subst hij
      rw [hsig] at hj
      obtain rfl : change sig = sig' := by simpa using hj
      exact hmoves.one (h.one sig (List.mem_of_getElem? hsig))
    · exact h.one sig' (List.mem_of_getElem? (by simpa using hj))

theorem add (h : Tallied flags c l) (hsig : flags sig = ⟨false, false, true⟩) :
    Tallied flags c.add (l ++ [sig]) where
  started := by simpa [hsig, SignalCounters.add] using h.started.concat sig
  paused := by simpa [hsig, SignalCounters.add] using h.paused.concat sig
  stopped := by simpa [hsig, SignalCounters.add] using h.stopped.concat sig
  number := by
    change c.attr_AttributeNumber_read + 1 = _
    rw [List.length_append, h.number]
    rfl
  one := by
    intro sig' hsig'
    rcases List.mem_append.mp hsig' with hmem | hmem
    · exact h.one sig' hmem
    · obtain rfl : sig' = sig := by simpa using hmem
      exact .inr (.inr hsig)

theorem remove (h : Tallied flags c l) (hsig : l[i]? = some sig) :
    Tallied flags (c.remove (flags sig)) (l.eraseIdx i) where
  started := h.started.eraseIdx hsig
  paused := h.paused.eraseIdx hsig
  stopped := h.stopped.eraseIdx hsig
  number := by
    have hlt : i < l.length := (List.getElem?_eq_some_iff.mp hsig).1
    rw [List.length_eraseIdx_of_lt hlt]
    change c.attr_AttributeNumber_read - 1 = _
    rw [h.number]
    omega
  one := fun sig' hsig' => h.one sig' (List.mem_of_mem_eraseIdx hsig')

end Tallied

end DshLmc
