import Mathlib.Algebra.Order.Archimedean.Real.Basic
import Mathlib.Tactic.Positivity
import DshLmc.Core.Randomization

/-!
# The range of random values

Random values of an integer attribute are to stay between the bounds that were given for them. What
`std::nextafter` does to the upper bound is meant for reals: converted to an integer again, the number
above it is the bound itself where that is not negative, and the next integer where it is.
-/

namespace DshLmc

theorem two_pow_log2_le {n : ℕ} (h : n ≠ 0) : (2 : ℚ) ^ n.log2 ≤ n := by
  exact_mod_cast Nat.log2_self_le h

theorem lt_nextafter (m : ℤ) : (m : ℚ) < nextafter m := by
  rw [nextafter]
  split_ifs with hzero hpos
  · subst hzero
    positivity
  · exact lt_add_of_pos_right _ (by positivity)
  · exact lt_add_of_pos_right _ (by positivity)

theorem nextafter_lt {m : ℤ} (hm : m.natAbs < 4503599627370496) : nextafter m < m + 1 := by
  have hbound : (m.natAbs : ℚ) < 4503599627370496 := by exact_mod_cast hm
  rw [nextafter]
  split_ifs with hzero hpos
  · subst hzero
    rw [Int.cast_zero, zero_add, div_lt_one (by positivity)]
    exact one_lt_pow₀ one_lt_two (by norm_num)
  · have hlog := two_pow_log2_le (Int.natAbs_ne_zero.mpr hzero)
    rw [add_lt_add_iff_left, div_lt_one (by positivity)]
    norm_num
    linarith
  · have hone : 1 ≤ m.natAbs := Int.natAbs_pos.mpr hzero
    have hlog := two_pow_log2_le (n := 2 * m.natAbs - 1) (by omega)
    rw [Nat.cast_sub (by omega)] at hlog
    rw [add_lt_add_iff_left, div_lt_one (by positivity)]
    push_cast at hlog
    norm_num
    linarith

theorem IntegerType.natAbs_lt {T : IntegerType} (m : T.Carrier) :
    (m : ℤ).natAbs < 4503599627370496 := by
  have hm := m.2
  cases T <;> simp only [IntegerType.lowest, IntegerType.highest, Set.mem_Icc] at hm <;> omega

theorem truncate_nextafter_of_nonneg {T : IntegerType} {m : T.Carrier} (hm : 0 ≤ (m : ℤ)) :
    truncate (nextafter m) = m :=
  truncate_of_nonneg hm (lt_nextafter _).le (nextafter_lt (IntegerType.natAbs_lt m))

theorem truncate_nextafter_of_neg {T : IntegerType} {m : T.Carrier} (hm : (m : ℤ) < 0) :
    truncate (nextafter m) = m + 1 :=
  truncate_of_neg hm (lt_nextafter _) (nextafter_lt (IntegerType.natAbs_lt m))

def Randomized.Stores (r : Randomized) (v : ℤ) : Prop := ∃ values, r.stored = some values ∧ v ∈ values

namespace IntegerAttr

variable {T : IntegerType} {attr : IntegerAttr T} {minValue maxValue : T.Carrier} {v : ℤ}

/-- An attribute of the integer type itself, and of the format. -/
structure Takes (attr : IntegerAttr T) (data_format : Int) : Prop where
  data_type_eq : attr.data_type = T.dataType
  data_format_eq : attr.data_format = data_format

theorem Takes.enum_labels_eq {data_format : Int} (h : attr.Takes data_format) :
    attr.enum_labels = [] := by
  apply attr.unlabelled
  rw [h.data_type_eq]
  cases T <;> decide

theorem Takes.supports {data_format : Int} (h : attr.Takes data_format) :
    T.supports attr.data_type := by
  rw [h.data_type_eq]
  cases T <;> decide

theorem mem_of_setOrThrow {data_format : Int} {values : List ℤ} {outcome : WriteOutcome}
    {failure : DevFailed} (h : (attr.setOrThrow data_format values outcome failure).Stores v) :
    v ∈ values := by
  obtain ⟨stored, hstored, hv⟩ := h
  simp only [setOrThrow, setDynAttrValue] at hstored
  split_ifs at hstored
  cases outcome with
  | failsBefore => cases hstored
  | succeeds =>
      cases hstored
      exact hv
  | failsAfter =>
      cases hstored
      exact hv

theorem stores_setOrThrow {data_format : Int} {values : List ℤ} {failure : DevFailed}
    (hattr : attr.Takes data_format)
    (hsize : data_format = Tango.spectrum → (values.length : ℤ) ≤ attr.max_dim_x) (hv : v ∈ values) :
    (attr.setOrThrow data_format values .succeeds failure).Stores v := by
  have hfits : ¬(data_format = Tango.spectrum ∧ attr.max_dim_x < values.length) := by
    rintro ⟨hformat, hlt⟩
    exact absurd (hsize hformat) (not_le.mpr hlt)
  refine ⟨values, ?_, hv⟩
  simp [setOrThrow, setDynAttrValue, hattr.data_format_eq, hattr.enum_labels_eq, hfits]

variable (attr minValue maxValue v)

def StoresScalarUniform : Prop :=
  ∃ attr_name draw outcome,
    (attr.randomizeScalarDynAttrUniform minValue maxValue attr_name attr.data_type draw
      outcome).Stores v

def StoresSpectrumUniform (data_size : Int) : Prop :=
  ∃ attr_name draws outcome,
    (attr.randomizeSpectrumDynAttrUniform minValue maxValue attr_name attr.data_type data_size draws
      outcome).Stores v

def StoresScalarGaussian : Prop :=
  ∃ (meanValue sigmaValue : T.Carrier) (attr_name : String)
    (draws : NormalDraws ℝ meanValue sigmaValue) (outcome : WriteOutcome),
    (attr.randomizeScalarDynAttrGaussian minValue maxValue meanValue sigmaValue attr_name draws
      outcome).Stores v

def StoresSpectrumGaussian (data_size : Int) : Prop :=
  ∃ (meanValue sigmaValue : T.Carrier) (attr_name : String)
    (draws : NormalDraws ℝ meanValue sigmaValue) (outcome : WriteOutcome),
    (attr.randomizeSpectrumDynAttrGaussian minValue maxValue meanValue sigmaValue attr_name data_size
      draws outcome).Stores v

variable {attr minValue maxValue v}

theorem between_of_storesScalarUniform (h : attr.StoresScalarUniform minValue maxValue v) :
    (minValue : ℤ) ≤ v ∧ v ≤ truncate (nextafter maxValue) := by
  obtain ⟨attr_name, draw, outcome, hstores⟩ := h
  rw [randomizeScalarDynAttrUniform] at hstores
  split at hstores
  · have hv := mem_of_setOrThrow hstores
    rw [List.mem_singleton] at hv
    exact hv ▸ draw.2
  · obtain ⟨_, hstored, -⟩ := hstores
    cases hstored

theorem storesScalarUniform_iff (hattr : attr.Takes Tango.scalar) :
    attr.StoresScalarUniform minValue maxValue v
      ↔ (minValue : ℤ) ≤ v ∧ v ≤ truncate (nextafter maxValue) := by
  refine ⟨between_of_storesScalarUniform, fun hv => ⟨"", ⟨v, hv⟩, .succeeds, ?_⟩⟩
  rw [randomizeScalarDynAttrUniform, if_pos hattr.supports]
  refine stores_setOrThrow hattr (fun hformat => ?_) (List.mem_singleton.mpr rfl)
  exact absurd hformat (by decide)

theorem between_of_storesSpectrumUniform {data_size : Int}
    (h : attr.StoresSpectrumUniform minValue maxValue v data_size) :
    (minValue : ℤ) ≤ v ∧ v ≤ maxValue := by
  obtain ⟨attr_name, draws, outcome, hstores⟩ := h
  rw [randomizeSpectrumDynAttrUniform] at hstores
  split at hstores
  · obtain ⟨i, -, rfl⟩ := List.mem_map.mp (mem_of_setOrThrow hstores)
    exact (draws i).2
  · obtain ⟨_, hstored, -⟩ := hstores
    cases hstored

theorem storesSpectrumUniform_iff {data_size : Int} (hattr : attr.Takes Tango.spectrum)
    (hpos : 0 < data_size) (hsize : data_size ≤ attr.max_dim_x) :
    attr.StoresSpectrumUniform minValue maxValue v data_size
      ↔ (minValue : ℤ) ≤ v ∧ v ≤ maxValue := by
  refine ⟨between_of_storesSpectrumUniform, fun hv => ⟨"", fun _ => ⟨v, hv⟩, .succeeds, ?_⟩⟩
  rw [randomizeSpectrumDynAttrUniform, if_pos hattr.supports]
  refine stores_setOrThrow hattr (fun _ => ?_) (List.mem_map.mpr ⟨0, ?_, rfl⟩)
  · rw [List.length_map, List.length_range]
    omega
  · rw [List.mem_range]
    omega

theorem between_of_drawBetween {a b : ℤ} {draws : ℕ → ℝ} {n next : ℕ} {x : ℝ} {next' : ℕ}
    (h : drawBetween a b draws n next = some (x, next')) : (a : ℝ) ≤ x ∧ x ≤ b := by
  induction n generalizing next with
  | zero => cases h
  | succ n ih =>
      rw [drawBetween] at h
      split at h
      · case isTrue hbetween =>
          cases h
          exact hbetween
      · exact ih h

/-- The lower bound alone is enough, as the accepted number is not above the upper one. -/
theorem castBetween_mem {a b : ℤ} {x : ℝ} (h : (a : ℝ) ≤ x ∧ x ≤ b) :
    a ≤ castBetween a x ∧ castBetween a x ≤ b := by
  have hround := isRounding_roundHalfAway.mem_Icc h.1 h.2
  exact ⟨le_max_right _ _, max_le hround.2 (hround.1.trans hround.2)⟩

theorem between_of_gaussianValues {a b : ℤ} {draws : ℕ → ℝ} {n next : ℕ} {values : List ℤ}
    (h : gaussianValues a b draws n next = some values) : ∀ v ∈ values, a ≤ v ∧ v ≤ b := by
  induction n generalizing next values with
  | zero =>
      cases h
      exact fun v hv => absurd hv List.not_mem_nil
  | succ n ih =>
      rw [gaussianValues] at h
      split at h
      · cases h
      · case h_2 attr_value next' hdraw =>
          obtain ⟨rest, hrest, rfl⟩ := Option.map_eq_some_iff.mp h
          intro v hv
          rcases List.mem_cons.mp hv with rfl | hv
          · exact castBetween_mem (between_of_drawBetween hdraw)
          · exact ih hrest v hv

theorem between_of_storesScalarGaussian (h : attr.StoresScalarGaussian minValue maxValue v) :
    (minValue : ℤ) ≤ v ∧ v ≤ maxValue := by
  obtain ⟨meanValue, sigmaValue, attr_name, draws, outcome, hstores⟩ := h
  rw [randomizeScalarDynAttrGaussian] at hstores
  split at hstores
  · obtain ⟨_, hstored, -⟩ := hstores
    cases hstored
  · case h_2 random_value _ hdraw =>
      have hv := mem_of_setOrThrow hstores
      rw [List.mem_singleton] at hv
      exact hv ▸ castBetween_mem (between_of_drawBetween hdraw)

theorem between_of_storesSpectrumGaussian {data_size : Int}
    (h : attr.StoresSpectrumGaussian minValue maxValue v data_size) :
    (minValue : ℤ) ≤ v ∧ v ≤ maxValue := by
  obtain ⟨meanValue, sigmaValue, attr_name, draws, outcome, hstores⟩ := h
  rw [randomizeSpectrumDynAttrGaussian] at hstores
  split at hstores
  · obtain ⟨_, hstored, -⟩ := hstores
    cases hstored
  · case h_2 values hvalues =>
      exact between_of_gaussianValues hvalues v (mem_of_setOrThrow hstores)

variable (minValue maxValue)

/-- Whatever is drawn, no function stores a value out of the range, and with the uniform distribution
a scalar can get the same values as the elements of a spectrum. -/
structure StaysInRange : Prop where
  scalarUniform : ∀ (attr : IntegerAttr T) (v : ℤ),
    attr.StoresScalarUniform minValue maxValue v → (minValue : ℤ) ≤ v ∧ v ≤ maxValue
  spectrumUniform : ∀ (attr : IntegerAttr T) (data_size : Int) (v : ℤ),
    attr.StoresSpectrumUniform minValue maxValue v data_size → (minValue : ℤ) ≤ v ∧ v ≤ maxValue
  scalarGaussian : ∀ (attr : IntegerAttr T) (v : ℤ),
    attr.StoresScalarGaussian minValue maxValue v → (minValue : ℤ) ≤ v ∧ v ≤ maxValue
  spectrumGaussian : ∀ (attr : IntegerAttr T) (data_size : Int) (v : ℤ),
    attr.StoresSpectrumGaussian minValue maxValue v data_size → (minValue : ℤ) ≤ v ∧ v ≤ maxValue
  sameUniform : ∀ (scalar spectrum : IntegerAttr T) (data_size : Int), scalar.Takes Tango.scalar →
    spectrum.Takes Tango.spectrum → 0 < data_size → data_size ≤ spectrum.max_dim_x →
      ∀ v, scalar.StoresScalarUniform minValue maxValue v
        ↔ spectrum.StoresSpectrumUniform minValue maxValue v data_size

variable {minValue maxValue}

theorem staysInRange_of_nonneg (h : 0 ≤ (maxValue : ℤ)) : StaysInRange minValue maxValue where
  scalarUniform attr v hv := by
    rw [← truncate_nextafter_of_nonneg h]
    exact between_of_storesScalarUniform hv
  spectrumUniform attr data_size v hv := between_of_storesSpectrumUniform hv
  scalarGaussian attr v hv := between_of_storesScalarGaussian hv
  spectrumGaussian attr data_size v hv := between_of_storesSpectrumGaussian hv
  sameUniform scalar spectrum data_size hscalar hspectrum hpos hsize v := by
    rw [storesScalarUniform_iff hscalar, storesSpectrumUniform_iff hspectrum hpos hsize,
      truncate_nextafter_of_nonneg h]

def ofType (T : IntegerType) (data_format max_dim_x : Int) : IntegerAttr T where
  data_type := T.dataType
  data_format := data_format
  max_dim_x := max_dim_x
  enum_labels := []
  typed := .inl rfl
  unlabelled _ := rfl

/-- Below zero the scalar gets the integer above the range. -/
theorem storesScalarUniform_above (hle : minValue ≤ maxValue) (hneg : (maxValue : ℤ) < 0) :
    (ofType T Tango.scalar 1).StoresScalarUniform minValue maxValue (maxValue + 1) := by
  have hle' : (minValue : ℤ) ≤ maxValue := hle
  rw [storesScalarUniform_iff ⟨rfl, rfl⟩, truncate_nextafter_of_neg hneg]
  exact ⟨by omega, le_rfl⟩

/-- **Ranges of random integers.** Random values stay between the bounds, and uniform scalars and
spectra get the same values, where the upper bound is not negative and only there. -/
theorem staysInRange_iff (hle : minValue ≤ maxValue) :
    StaysInRange minValue maxValue ↔ 0 ≤ (maxValue : ℤ) := by
  constructor
  · intro h
    by_contra hneg
    have habove := storesScalarUniform_above hle (not_le.mp hneg)
    have hmem := h.scalarUniform _ _ habove
    omega
  · exact staysInRange_of_nonneg

theorem staysInRange_iff_shorts :
    StaysInRange (⟨-5, by decide⟩ : IntegerType.short.Carrier) ⟨3, by decide⟩ :=
  (staysInRange_iff (by decide)).mpr (by decide)

/-- From -3 to -1 there is a scalar that gets 0. -/
theorem not_staysInRange_longs :
    ¬StaysInRange (⟨-3, by decide⟩ : IntegerType.long.Carrier) ⟨-1, by decide⟩ := by
  intro h
  have hzero := h.scalarUniform _ _ (storesScalarUniform_above (by decide) (by decide))
  exact absurd hzero.2 (by decide)

end IntegerAttr

end DshLmc
