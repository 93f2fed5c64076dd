import Mathlib.Data.Char

/-!
# Small and capital letters

The case of a letter changes with nothing else in a text. A symbol that is no letter is where it was,
before and after.
-/

namespace DshLmc

namespace Letters

/-- A letter stays one, and all else stays. -/
theorem toLower_cases (c : Char) :
    c.toLower = c ∨ c.isAlpha ∧ c.toLower.isAlpha ∧ c.toLower.toLower = c.toLower := by
  have hletters : ∀ n < 26, (Char.ofNat (65 + n)).isAlpha ∧ (Char.ofNat (65 + n)).toLower.isAlpha
      ∧ (Char.ofNat (65 + n)).toLower.toLower = (Char.ofNat (65 + n)).toLower := by decide
  by_cases h : c.val ≥ 'A'.val ∧ c.val ≤ 'Z'.val
  · right
    have hfirst : 65 ≤ c.toNat := UInt32.le_iff_toNat_le.mp h.1
    have hlast : c.toNat ≤ 90 := UInt32.le_iff_toNat_le.mp h.2
    have hc := hletters (c.toNat - 65) (by omega)
    rwa [Nat.add_sub_cancel' hfirst, Char.ofNat_toNat] at hc
  · left
    exact dif_neg h

theorem toUpper_cases (c : Char) :
    c.toUpper = c ∨ c.isAlpha ∧ c.toUpper.isAlpha ∧ c.toUpper.toUpper = c.toUpper := by
  have hletters : ∀ n < 26, (Char.ofNat (97 + n)).isAlpha ∧ (Char.ofNat (97 + n)).toUpper.isAlpha
      ∧ (Char.ofNat (97 + n)).toUpper.toUpper = (Char.ofNat (97 + n)).toUpper := by decide
  by_cases h : c.val ≥ 'a'.val ∧ c.val ≤ 'z'.val
  · right
    have hfirst : 97 ≤ c.toNat := UInt32.le_iff_toNat_le.mp h.1
    have hlast : c.toNat ≤ 122 := UInt32.le_iff_toNat_le.mp h.2
    have hc := hletters (c.toNat - 97) (by omega)
    rwa [Nat.add_sub_cancel' hfirst, Char.ofNat_toNat] at hc
  · left
    exact dif_neg h

/-- What folds letters folds them once and for all. -/
theorem fold_fold {f : Char → Char}
    (hf : ∀ c, f c = c ∨ c.isAlpha ∧ (f c).isAlpha ∧ f (f c) = f c) (c : Char) : f (f c) = f c := by
  rcases hf c with h | h
  · rw [h, h]
  · exact h.2.2

theorem toLower_toLower (c : Char) : c.toLower.toLower = c.toLower := fold_fold toLower_cases c

theorem toUpper_toUpper (c : Char) : c.toUpper.toUpper = c.toUpper := fold_fold toUpper_cases c

variable {x : Char} {text : List Char}

/-- A change of letters leaves what is no letter in its place. -/
theorem mem_map_iff {f : Char → Char}
    (hf : ∀ c, f c = c ∨ c.isAlpha ∧ (f c).isAlpha ∧ f (f c) = f c)
    (hx : x.isAlpha = false) : x ∈ text.map f ↔ x ∈ text := by
  have hletter : ¬ x.isAlpha = true := by simp [hx]
  rw [List.mem_map]
  constructor
  · rintro ⟨c, hc, rfl⟩
    rcases hf c with hstays | hletters
    · rwa [hstays]
    · exact absurd hletters.2.1 hletter
  · intro hmem
    refine ⟨x, hmem, ?_⟩
    rcases hf x with hstays | hletters
    · exact hstays
    · exact absurd hletters.1 hletter

theorem mem_map_toLower_iff (hx : x.isAlpha = false) : x ∈ text.map Char.toLower ↔ x ∈ text :=
  mem_map_iff toLower_cases hx

theorem mem_map_toUpper_iff (hx : x.isAlpha = false) : x ∈ text.map Char.toUpper ↔ x ∈ text :=
  mem_map_iff toUpper_cases hx

end Letters

end DshLmc
