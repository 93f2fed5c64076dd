import DshLmc.Proof.FormulaEntries

/-!
# The quality factor of a formula

Which variables make the value of a formula invalid. The quality factor is computed from the entries of
the three maps, so a variable counts only with an entry of its own there, and its age is that of the
entry, in whole seconds of a difference of 32 bits.
-/

namespace DshLmc

open Tango Std

def microsBetween (before after : TimeVal) : Int :=
  (after.tv_sec.toInt - before.tv_sec.toInt) * 1000000 + after.tv_usec.toInt - before.tv_usec.toInt

theorem getTimeDiffUSec_swap (before after : TimeVal) :
    getTimeDiffUSec after before = - getTimeDiffUSec before after := by
  rw [getTimeDiffUSec, getTimeDiffUSec]
  grind

theorem natAbs_getTimeDiffSec_swap (before after : TimeVal) :
    (getTimeDiffSec after before).natAbs = (getTimeDiffSec before after).natAbs := by
  rw [getTimeDiffSec, getTimeDiffSec, getTimeDiffUSec_swap before after]
  generalize getTimeDiffUSec before after = usec
  rw [Int32.toInt_neg]
  -- The smallest number is its own negation.
  by_cases hmin : usec.toInt = -2147483648
  · rw [hmin]
    rfl
  · have hle : -2147483648 ≤ usec.toInt := usec.le_toInt
    have hlt : usec.toInt < 2147483648 := usec.toInt_lt
    rw [Int.bmod_eq_of_le (by omega) (by omega), Int.neg_tdiv, Int.natAbs_neg]

variable {T : Type} (num : FormulaNumbers T) (exprtk : Exprtk T) (store : FormulaStore)
  (timeref : TimeVal)

def sampleNumbers : FormulaNumbers Int where
  static_cast S value :=
    match S, value with
    | .state, number => number.toNat
    | .long, number => number.toInt
    | .short, number => number.toInt
    | .boolean, flag => Bool.toNat flag
    | .float, _ => 0
    | .double, _ => 0
    | .string, _ => 0
  quality
    | .valid => 0
    | .invalid => 1
    | .alarm => 2
    | .changing => 3
    | .warning => 4
  extract := String.toInt?
  result K number :=
    match K with
    | .state => UInt32.ofInt number
    | .long => Int32.ofInt number
    | .short => Int16.ofInt number
    | .boolean => decide (number ≠ 0)
    | .float => UInt32.ofInt 0
    | .double => UInt64.ofInt 0
    | .string => toString number

def sampleExprtk : Exprtk Int where
  valid_symbol _ := true
  evaluate _ _ := some ⟨fun _ => 0, fun _ => "", fun _ _ => 0⟩
  valid_res _ := rfl

namespace FormulaData

section Quality

variable (f : FormulaData) (attr_timestamp_threshold : Int) {K L : Type}

/-- The entry makes the value of the formula invalid. -/
def Spoils (data : FormulaVarData K) : Prop :=
  data.formula_attr_name ≠ f.m_attrName
    ∧ (f.m_setInvalidQualityIfOld = true ∧ attr_timestamp_threshold < data.attr_timediff.natAbs
      ∨ (∃ v, f.m_symbols[data.formula_var_name]? = some v ∧ v.attr_value_type = .eATTR_VALUE)
        ∧ data.attr_quality = .invalid)

variable {items : List (String × FormulaVarData K)}

theorem checkQuality_eq_invalid
    (hvars : ∀ item ∈ items, ∃ v, f.m_symbols[item.2.formula_var_name]? = some v)
    (h : ∃ item ∈ items, f.Spoils attr_timestamp_threshold item.2) :
    f.checkQuality attr_timestamp_threshold items = some .invalid := by
  induction items with
  | nil =>
      obtain ⟨item, hitem, -⟩ := h
      cases hitem
  | cons item rest ih =>
      obtain ⟨v, hv⟩ := hvars item List.mem_cons_self
      have ih := ih fun item' hitem' => hvars item' (List.mem_cons_of_mem _ hitem')
      obtain ⟨name, data⟩ := item
      rw [checkQuality, hv]
      simp only [Option.bind_eq_bind, Option.bind_some]
      split_ifs with hown hold hinvalid
      · obtain ⟨item', hitem', hspoils⟩ := h
        obtain rfl | hitem' := List.mem_cons.mp hitem'
        · exact absurd hown hspoils.1
        · exact ih ⟨item', hitem', hspoils⟩
      · rfl
      · rfl
      · obtain ⟨item', hitem', hspoils⟩ := h
        obtain rfl | hitem' := List.mem_cons.mp hitem'
        · obtain hage | ⟨⟨v', hv', htype⟩, hquality⟩ := hspoils.2
          · exact absurd hage hold
          · obtain rfl : v = v' := Option.some.inj (hv.symm.trans hv')
            exact absurd ⟨htype, hquality⟩ hinvalid
        · exact ih ⟨item', hitem', hspoils⟩

theorem checkQuality_eq_valid
    (hvars : ∀ item ∈ items, ∃ v, f.m_symbols[item.2.formula_var_name]? = some v)
    (h : ∀ item ∈ items, ¬ f.Spoils attr_timestamp_threshold item.2) :
    f.checkQuality attr_timestamp_threshold items = some .valid := by
  induction items with
  | nil => rfl
  | cons item rest ih =>
      obtain ⟨v, hv⟩ := hvars item List.mem_cons_self
      have hspoils := h item List.mem_cons_self
      have ih := ih (fun item' hitem' => hvars item' (List.mem_cons_of_mem _ hitem'))
        fun item' hitem' => h item' (List.mem_cons_of_mem _ hitem')
      obtain ⟨name, data⟩ := item
      rw [checkQuality, hv]
      simp only [Option.bind_eq_bind, Option.bind_some]
      split_ifs with hown hold hinvalid
      · exact ih
      · exact absurd ⟨hown, .inl hold⟩ hspoils
      · exact absurd ⟨hown, .inr ⟨⟨v, hv, hinvalid.1⟩, hinvalid.2⟩⟩ hspoils
      · exact ih

/-- Some entry of the three maps makes the value invalid. -/
def SpoiltBy (data_values : FormulaDataValues T) : Prop :=
  (∃ item ∈ data_values.scalar_values.toList, f.Spoils attr_timestamp_threshold item.2)
    ∨ (∃ item ∈ data_values.spectrum_values.toList, f.Spoils attr_timestamp_threshold item.2)
    ∨ ∃ item ∈ data_values.scalar_string_values.toList, f.Spoils attr_timestamp_threshold item.2

/-- The entries are of variables of the formula. -/
structure Covers (data_values : FormulaDataValues T) : Prop where
  numbers : ∀ item ∈ data_values.scalar_values.toList,
    ∃ v, f.m_symbols[item.2.formula_var_name]? = some v
  arrays : ∀ item ∈ data_values.spectrum_values.toList,
    ∃ v, f.m_symbols[item.2.formula_var_name]? = some v
  texts : ∀ item ∈ data_values.scalar_string_values.toList,
    ∃ v, f.m_symbols[item.2.formula_var_name]? = some v

variable {f attr_timestamp_threshold} {data_values : FormulaDataValues T}

theorem computeFormulaAttrQuality_eq_invalid (hcovers : f.Covers data_values)
    (h : f.SpoiltBy attr_timestamp_threshold data_values) :
    f.computeFormulaAttrQuality data_values attr_timestamp_threshold = some .invalid := by
  rw [computeFormulaAttrQuality]
  by_cases hnumbers : ∃ item ∈ data_values.scalar_values.toList,
    f.Spoils attr_timestamp_threshold item.2
  · rw [f.checkQuality_eq_invalid _ hcovers.numbers hnumbers]
    rfl
  rw [f.checkQuality_eq_valid _ hcovers.numbers fun item hitem hspoils => hnumbers ⟨item, hitem, hspoils⟩]
  by_cases harrays : ∃ item ∈ data_values.spectrum_values.toList,
    f.Spoils attr_timestamp_threshold item.2
  · rw [f.checkQuality_eq_invalid _ hcovers.arrays harrays]
    rfl
  rw [f.checkQuality_eq_valid _ hcovers.arrays fun item hitem hspoils => harrays ⟨item, hitem, hspoils⟩]
  have htexts := (h.resolve_left hnumbers).resolve_left harrays
  rw [f.checkQuality_eq_invalid _ hcovers.texts htexts]
  rfl

theorem computeFormulaAttrQuality_eq_valid (hcovers : f.Covers data_values)
    (h : ¬ f.SpoiltBy attr_timestamp_threshold data_values) :
    f.computeFormulaAttrQuality data_values attr_timestamp_threshold = some .valid := by
  rw [computeFormulaAttrQuality]
  rw [f.checkQuality_eq_valid _ hcovers.numbers fun item hitem hspoils =>
    h (.inl ⟨item, hitem, hspoils⟩)]
  rw [f.checkQuality_eq_valid _ hcovers.arrays fun item hitem hspoils =>
    h (.inr (.inl ⟨item, hitem, hspoils⟩))]
  rw [f.checkQuality_eq_valid _ hcovers.texts fun item hitem hspoils =>
    h (.inr (.inr ⟨item, hitem, hspoils⟩))]
  rfl

end Quality

/-! ### The quality factor of the variables -/

section Variables

variable (f : FormulaData) (attr_timestamp_threshold : Int)

/-- What the entry of a variable is asked. -/
def Judged (v : FormulaVar) : Prop :=
  v.attr_name ≠ f.m_attrName
    ∧ (f.m_setInvalidQualityIfOld = true
        ∧ attr_timestamp_threshold < (getTimeDiffSec (v.timestamp store) timeref).natAbs
      ∨ v.attr_value_type = .eATTR_VALUE ∧ v.quality store = .invalid)

/-- The name is not that of an element of an array of texts of the formula. -/
def Unshadowed (var_name : String) : Prop :=
  ∀ q ∈ f.m_symbols.toList, ∀ r, q.2.contribution num store = some (.texts r) →
    ∀ i < r.attr_value.length, elementName q.1 i ≠ var_name

/-- The variable has an entry of its own in the end. The elements of an array of texts take the place
of texts with their names. -/
def HasEntry (p : String × FormulaVar) : Prop :=
  match p.2.contribution num store with
  | some (.number _) => True
  | some (.array _) => True
  | some (.text _) => f.Unshadowed num store p.1
  | some (.texts r) => r.attr_value ≠ []
  | some .skipped => False
  | none => False

variable {f}

theorem eq_of_mem_symbols {p q : String × FormulaVar} (hp : p ∈ f.m_symbols.toList)
    (hq : q ∈ f.m_symbols.toList) (h : p.1 = q.1) : p = q := by
  obtain ⟨name, v⟩ := p
  obtain ⟨name', v'⟩ := q
  obtain rfl : name = name' := h
  rw [ExtTreeMap.mem_toList_iff_getElem?_eq_some] at hp hq
  rw [Option.some.inj (hp.symm.trans hq)]

variable {p : String × FormulaVar} {K L : Type} {r : Reading K} {store timeref}

theorem spoils_iff (hp : p ∈ f.m_symbols.toList) (hr : p.2.Current store r) {dt : Int}
    (hdt : dt.natAbs = (getTimeDiffSec r.attr_timestamp timeref).natAbs) (attr_value : L) :
    f.Spoils attr_timestamp_threshold ⟨attr_value, r.attr_quality, dt, p.1, p.2.attr_name⟩
      ↔ f.Judged store timeref attr_timestamp_threshold p.2 := by
  obtain ⟨name, v⟩ := p
  rw [ExtTreeMap.mem_toList_iff_getElem?_eq_some] at hp
  have hvar : (∃ v', f.m_symbols[name]? = some v' ∧ v'.attr_value_type = .eATTR_VALUE)
      ↔ v.attr_value_type = .eATTR_VALUE := by
    rw [hp]
    constructor
    · rintro ⟨v', hv', htype⟩
      exact Option.some.inj hv' ▸ htype
    · exact fun htype => ⟨v, rfl, htype⟩
  simp only [Spoils, Judged, hdt, hr.1, hr.2, hvar]

theorem spoils_iff_after (hp : p ∈ f.m_symbols.toList) (hr : p.2.Current store r) (attr_value : L) :
    f.Spoils attr_timestamp_threshold ⟨attr_value, r.attr_quality,
        getTimeDiffSec timeref r.attr_timestamp, p.1, p.2.attr_name⟩
      ↔ f.Judged store timeref attr_timestamp_threshold p.2 :=
  spoils_iff attr_timestamp_threshold hp hr (natAbs_getTimeDiffSec_swap _ _) attr_value

variable (f store timeref)

theorem exists_spoils_numbers :
    (∃ item ∈ ((writesOf num store timeref f.m_symbols.toList).numbers.foldl MapWrite.apply
        (∅ : ExtTreeMap String (FormulaVarData T))).toList, f.Spoils attr_timestamp_threshold item.2)
      ↔ ∃ p ∈ f.m_symbols.toList, (∃ r, p.2.contribution num store = some (.number r))
        ∧ f.Judged store timeref attr_timestamp_threshold p.2 := by
  have hspoils {p r} (hp : p ∈ f.m_symbols.toList) (hc : p.2.contribution num store = some (.number r)) :
      f.Spoils attr_timestamp_threshold
          (p.2.varData p.1 r (getTimeDiffSec r.attr_timestamp timeref))
        ↔ f.Judged store timeref attr_timestamp_threshold p.2 :=
    spoils_iff attr_timestamp_threshold hp (p.2.current_contribution num hc) rfl r.attr_value
  have hnot : ∀ k b, MapWrite.insert k b ∉ (writesOf num store timeref f.m_symbols.toList).numbers := by
    intro k b h
    obtain ⟨p, -, r, -, hw⟩ := (mem_numbers num store timeref).mp h
    cases hw
  rw [MapWrite.exists_mem_toList_foldl_apply (fun k b b' h => absurd h (hnot k b))]
  · constructor
    · rintro (⟨k, b, h, -⟩ | ⟨k, b, h, -, hb⟩)
      · exact absurd h (hnot k b)
      · obtain ⟨p, hp, r, hc, hw⟩ := (mem_numbers num store timeref).mp h
        cases hw
        exact ⟨p, hp, ⟨r, hc⟩, (hspoils hp hc).mp hb⟩
    · rintro ⟨p, hp, ⟨r, hc⟩, hjudged⟩
      refine .inr ⟨_, _, (mem_numbers num store timeref).mpr ⟨p, hp, r, hc, rfl⟩, fun b' => hnot _ b', ?_⟩
      exact (hspoils hp hc).mpr hjudged
  · intro k b b' h h'
    obtain ⟨p, hp, r, hc, hw⟩ := (mem_numbers num store timeref).mp h
    obtain ⟨p', hp', r', hc', hw'⟩ := (mem_numbers num store timeref).mp h'
    cases hw
    rw [MapWrite.insertIfNew.injEq] at hw'
    obtain rfl := eq_of_mem_symbols hp hp' hw'.1
    rw [hw'.2, hspoils hp hc, hspoils hp hc']

theorem exists_spoils_arrays :
    (∃ item ∈ ((writesOf num store timeref f.m_symbols.toList).arrays.foldl MapWrite.apply
        (∅ : ExtTreeMap String (FormulaVarData (List T)))).toList,
        f.Spoils attr_timestamp_threshold item.2)
      ↔ ∃ p ∈ f.m_symbols.toList, (∃ r, p.2.contribution num store = some (.array r))
        ∧ f.Judged store timeref attr_timestamp_threshold p.2 := by
  have hspoils {p r} (hp : p ∈ f.m_symbols.toList) (hc : p.2.contribution num store = some (.array r)) :
      f.Spoils attr_timestamp_threshold
          (p.2.varData p.1 r (getTimeDiffSec timeref r.attr_timestamp))
        ↔ f.Judged store timeref attr_timestamp_threshold p.2 :=
    spoils_iff_after attr_timestamp_threshold hp (p.2.current_contribution num hc) r.attr_value
  have hnot : ∀ k b,
      MapWrite.insertIfNew k b ∉ (writesOf num store timeref f.m_symbols.toList).arrays := by
    intro k b h
    obtain ⟨p, -, r, -, hw⟩ := (mem_arrays num store timeref).mp h
    cases hw
  rw [MapWrite.exists_mem_toList_foldl_apply _ (fun k b b' h => absurd h (hnot k b))]
  · constructor
    · rintro (⟨k, b, h, hb⟩ | ⟨k, b, h, -⟩)
      · obtain ⟨p, hp, r, hc, hw⟩ := (mem_arrays num store timeref).mp h
        cases hw
        exact ⟨p, hp, ⟨r, hc⟩, (hspoils hp hc).mp hb⟩
      · exact absurd h (hnot k b)
    · rintro ⟨p, hp, ⟨r, hc⟩, hjudged⟩
      refine .inl ⟨_, _, (mem_arrays num store timeref).mpr ⟨p, hp, r, hc, rfl⟩, ?_⟩
      exact (hspoils hp hc).mpr hjudged
  · intro k b b' h h'
    obtain ⟨p, hp, r, hc, hw⟩ := (mem_arrays num store timeref).mp h
    obtain ⟨p', hp', r', hc', hw'⟩ := (mem_arrays num store timeref).mp h'
    cases hw
    rw [MapWrite.insert.injEq] at hw'
    obtain rfl := eq_of_mem_symbols hp hp' hw'.1
    rw [hw'.2, hspoils hp hc, hspoils hp hc']

theorem unshadowed_iff {var_name : String} :
    f.Unshadowed num store var_name
      ↔ ∀ b, MapWrite.insert var_name b ∉ (writesOf num store timeref f.m_symbols.toList).texts := by
  constructor
  · intro h b hb
    obtain ⟨q, hq, ⟨r, -, hw⟩ | ⟨r, hc, i, attr_value, hvalue, hw⟩⟩ := (mem_texts num store timeref).mp hb
    · cases hw
    · obtain ⟨hi, -⟩ := List.getElem?_eq_some_iff.mp hvalue
      rw [MapWrite.insert.injEq] at hw
      exact h q hq r hc i hi hw.1.symm
  · intro h q hq r hc i hi hname
    subst hname
    exact h _ ((mem_texts num store timeref).mpr
      ⟨q, hq, .inr ⟨r, hc, i, _, List.getElem?_eq_getElem hi, rfl⟩⟩)

theorem exists_spoils_texts :
    (∃ item ∈ ((writesOf num store timeref f.m_symbols.toList).texts.foldl MapWrite.apply
        (∅ : ExtTreeMap String (FormulaVarData String))).toList,
        f.Spoils attr_timestamp_threshold item.2)
      ↔ ∃ p ∈ f.m_symbols.toList,
        ((∃ r, p.2.contribution num store = some (.texts r) ∧ r.attr_value ≠ [])
          ∨ (∃ r, p.2.contribution num store = some (.text r)) ∧ f.Unshadowed num store p.1)
        ∧ f.Judged store timeref attr_timestamp_threshold p.2 := by
  have htext {p r} (hp : p ∈ f.m_symbols.toList) (hc : p.2.contribution num store = some (.text r)) :
      f.Spoils attr_timestamp_threshold
          (p.2.varData p.1 r (getTimeDiffSec timeref r.attr_timestamp))
        ↔ f.Judged store timeref attr_timestamp_threshold p.2 :=
    spoils_iff_after attr_timestamp_threshold hp (p.2.current_contribution num hc) r.attr_value
  have helement {p r} (hp : p ∈ f.m_symbols.toList)
      (hc : p.2.contribution num store = some (.texts r)) (attr_value : String) :
      f.Spoils attr_timestamp_threshold ⟨attr_value, r.attr_quality,
          getTimeDiffSec timeref r.attr_timestamp, p.1, p.2.attr_name⟩
        ↔ f.Judged store timeref attr_timestamp_threshold p.2 :=
    spoils_iff_after attr_timestamp_threshold hp (p.2.current_contribution num hc) attr_value
  rw [MapWrite.exists_mem_toList_foldl_apply]
  · constructor
    · rintro (⟨k, b, h, hb⟩ | ⟨k, b, h, hnot, hb⟩)
      · obtain ⟨p, hp, ⟨r, -, hw⟩ | ⟨r, hc, i, attr_value, hvalue, hw⟩⟩ :=
          (mem_texts num store timeref).mp h
        · cases hw
        · cases hw
          have hne : r.attr_value ≠ [] := by
            rintro hnil
            rw [hnil] at hvalue
            cases hvalue
          exact ⟨p, hp, .inl ⟨r, hc, hne⟩, (helement hp hc attr_value).mp hb⟩
      · obtain ⟨p, hp, ⟨r, hc, hw⟩ | ⟨r, -, i, attr_value, -, hw⟩⟩ :=
          (mem_texts num store timeref).mp h
        · cases hw
          exact ⟨p, hp, .inr ⟨⟨r, hc⟩, (f.unshadowed_iff num store timeref).mpr hnot⟩,
            (htext hp hc).mp hb⟩
        · cases hw
    · rintro ⟨p, hp, ⟨r, hc, hne⟩ | ⟨⟨r, hc⟩, hunshadowed⟩, hjudged⟩
      · obtain ⟨attr_value, rest, hvalues⟩ := List.exists_cons_of_ne_nil hne
        refine .inl ⟨_, _, (mem_texts num store timeref).mpr
          ⟨p, hp, .inr ⟨r, hc, 0, attr_value, ?_, rfl⟩⟩, (helement hp hc attr_value).mpr hjudged⟩
        rw [hvalues, List.getElem?_cons_zero]
      · exact .inr ⟨_, _, (mem_texts num store timeref).mpr ⟨p, hp, .inl ⟨r, hc, rfl⟩⟩,
          (f.unshadowed_iff num store timeref).mp hunshadowed, (htext hp hc).mpr hjudged⟩
  · -- The index is behind the last underscore, so a name is of one array only.
    intro k b b' h h'
    obtain ⟨p, hp, ⟨r, -, hw⟩ | ⟨r, hc, i, attr_value, -, hw⟩⟩ := (mem_texts num store timeref).mp h
    · cases hw
    obtain ⟨p', hp', ⟨r', -, hw'⟩ | ⟨r', hc', i', attr_value', -, hw'⟩⟩ :=
      (mem_texts num store timeref).mp h'
    · cases hw'
    rw [MapWrite.insert.injEq] at hw hw'
    obtain rfl := eq_of_mem_symbols hp hp' (eq_of_elementName_eq (hw.1.symm.trans hw'.1))
    rw [hw.2, hw'.2, helement hp hc, helement hp hc']
  · intro k b b' h h'
    obtain ⟨p, hp, ⟨r, hc, hw⟩ | ⟨r, -, i, attr_value, -, hw⟩⟩ := (mem_texts num store timeref).mp h
    swap
    · cases hw
    obtain ⟨p', hp', ⟨r', hc', hw'⟩ | ⟨r', -, i', attr_value', -, hw'⟩⟩ :=
      (mem_texts num store timeref).mp h'
    swap
    · cases hw'
    rw [MapWrite.insertIfNew.injEq] at hw hw'
    obtain rfl := eq_of_mem_symbols hp hp' (hw.1.symm.trans hw'.1)
    rw [hw.2, hw'.2, htext hp hc, htext hp hc']

theorem spoiltBy_iff :
    f.SpoiltBy attr_timestamp_threshold
        (({} : FormulaDataValues T).write (writesOf num store timeref f.m_symbols.toList))
      ↔ ∃ p ∈ f.m_symbols.toList, f.HasEntry num store p
        ∧ f.Judged store timeref attr_timestamp_threshold p.2 := by
  rw [SpoiltBy]
  simp only [FormulaDataValues.write]
  rw [exists_spoils_numbers, exists_spoils_arrays, exists_spoils_texts]
  constructor
  · rintro (⟨p, hp, ⟨r, hc⟩, hjudged⟩ | ⟨p, hp, ⟨r, hc⟩, hjudged⟩ |
      ⟨p, hp, ⟨r, hc, hne⟩ | ⟨⟨r, hc⟩, hunshadowed⟩, hjudged⟩)
    · exact ⟨p, hp, by simp only [HasEntry, hc], hjudged⟩
    · exact ⟨p, hp, by simp only [HasEntry, hc], hjudged⟩
    · exact ⟨p, hp, by simpa only [HasEntry, hc] using hne, hjudged⟩
    · exact ⟨p, hp, by simpa only [HasEntry, hc] using hunshadowed, hjudged⟩
  · rintro ⟨p, hp, hentry, hjudged⟩
    rw [HasEntry] at hentry
    split at hentry
    case h_1 r hc => exact .inl ⟨p, hp, ⟨r, hc⟩, hjudged⟩
    case h_2 r hc => exact .inr (.inl ⟨p, hp, ⟨r, hc⟩, hjudged⟩)
    case h_3 r hc => exact .inr (.inr ⟨p, hp, .inr ⟨⟨r, hc⟩, hentry⟩, hjudged⟩)
    case h_4 r hc => exact .inr (.inr ⟨p, hp, .inl ⟨r, hc, hentry⟩, hjudged⟩)
    case h_5 hc => exact hentry.elim
    case h_6 hc => exact hentry.elim

theorem covers_write :
    f.Covers (({} : FormulaDataValues T).write (writesOf num store timeref f.m_symbols.toList)) := by
  have hvar {p : String × FormulaVar} (hp : p ∈ f.m_symbols.toList) :
      ∃ v, f.m_symbols[p.1]? = some v :=
    ⟨p.2, ExtTreeMap.mem_toList_iff_getElem?_eq_some.mp hp⟩
  refine ⟨?_, ?_, ?_⟩
  · rintro ⟨k, data⟩ hitem
    obtain h | ⟨-, h⟩ :=
      MapWrite.mem_of_getElem?_foldl_apply (ExtTreeMap.mem_toList_iff_getElem?_eq_some.mp hitem)
    · obtain ⟨p, -, r, -, hw⟩ := (mem_numbers num store timeref).mp h
      cases hw
    · obtain ⟨p, hp, r, -, hw⟩ := (mem_numbers num store timeref).mp h
      cases hw
      exact hvar hp
  · rintro ⟨k, data⟩ hitem
    obtain h | ⟨-, h⟩ :=
      MapWrite.mem_of_getElem?_foldl_apply (ExtTreeMap.mem_toList_iff_getElem?_eq_some.mp hitem)
    · obtain ⟨p, hp, r, -, hw⟩ := (mem_arrays num store timeref).mp h
      cases hw
      exact hvar hp
    · obtain ⟨p, -, r, -, hw⟩ := (mem_arrays num store timeref).mp h
      cases hw
  · rintro ⟨k, data⟩ hitem
    obtain h | ⟨-, h⟩ :=
      MapWrite.mem_of_getElem?_foldl_apply (ExtTreeMap.mem_toList_iff_getElem?_eq_some.mp hitem)
    · obtain ⟨p, hp, ⟨r, -, hw⟩ | ⟨r, -, i, attr_value, -, hw⟩⟩ := (mem_texts num store timeref).mp h
      · cases hw
      · cases hw
        exact hvar hp
    · obtain ⟨p, hp, ⟨r, -, hw⟩ | ⟨r, -, i, attr_value, -, hw⟩⟩ := (mem_texts num store timeref).mp h
      · cases hw
        exact hvar hp
      · cases hw

/-- **The result.** When every variable can be read the tables are filled, and the quality factor is
that of the variables with an entry. -/
theorem fillSymbolTable_quality
    (hread : ∀ p ∈ f.m_symbols.toList, ∃ c, p.2.contribution num store = some c ∧ c.Fits) :
    ∃ tables, f.fillSymbolTable num exprtk store timeref = some tables
      ∧ ((∃ p ∈ f.m_symbols.toList, f.HasEntry num store p
            ∧ f.Judged store timeref attr_timestamp_threshold p.2) →
          f.computeFormulaAttrQuality tables.data_values attr_timestamp_threshold = some .invalid)
      ∧ ((¬ ∃ p ∈ f.m_symbols.toList, f.HasEntry num store p
            ∧ f.Judged store timeref attr_timestamp_threshold p.2) →
          f.computeFormulaAttrQuality tables.data_values attr_timestamp_threshold = some .valid) := by
  obtain ⟨tables, hfill, hvalues⟩ := addVars_eq_some num exprtk store timeref hread {}
  have hcovers := f.covers_write num store timeref
  refine ⟨tables, hfill, ?_, ?_⟩
  · intro h
    rw [hvalues]
    exact computeFormulaAttrQuality_eq_invalid hcovers ((f.spoiltBy_iff num store timeref _).mpr h)
  · intro h
    rw [hvalues]
    exact computeFormulaAttrQuality_eq_valid hcovers fun hspoilt =>
      h ((f.spoiltBy_iff num store timeref _).mp hspoilt)

variable (this_device : String)

/-- The variable is the attribute of the formula itself. Names do not depend on the case. -/
def Own (v : FormulaVar) : Prop :=
  sameName v.attr_name f.m_attrName = true
    ∧ ∀ device_name, v.device_name = some device_name → sameName device_name this_device = true

/-- The attribute has a value that is older than the threshold, in seconds. -/
def Old (v : FormulaVar) : Prop :=
  ∃ date, v.date store = some date
    ∧ attr_timestamp_threshold * 1000000 < (microsBetween date timeref).natAbs

/-- The variable should make the value of the formula invalid. -/
def Decides (v : FormulaVar) : Prop :=
  ¬ f.Own this_device v
    ∧ (v.attr_value_type = .eATTR_VALUE ∧ v.quality store = .invalid
      ∨ f.m_setInvalidQualityIfOld = true ∧ Old store timeref attr_timestamp_threshold v)

/-- When every variable can be read, the quality factor is invalid with a variable that should make it
so, and valid without. -/
def QualityExact : Prop :=
  (∀ p ∈ f.m_symbols.toList, (p.2.contribution num store).isSome) →
    ∃ tables attr_quality, f.fillSymbolTable num exprtk store timeref = some tables
      ∧ f.computeFormulaAttrQuality tables.data_values attr_timestamp_threshold = some attr_quality
      ∧ ((∃ p ∈ f.m_symbols.toList, f.Decides store timeref attr_timestamp_threshold this_device p.2) →
          attr_quality = .invalid)
      ∧ ((¬ ∃ p ∈ f.m_symbols.toList,
            f.Decides store timeref attr_timestamp_threshold this_device p.2) →
          attr_quality = .valid)

theorem qualityExact_iff :
    f.QualityExact num exprtk store timeref attr_timestamp_threshold this_device
      ↔ ((∀ p ∈ f.m_symbols.toList, (p.2.contribution num store).isSome) →
        (∀ p ∈ f.m_symbols.toList, ∀ r, p.2.contribution num store = some (.texts r) →
          r.attr_value.length ≤ 4294967296)
        ∧ ((∃ p ∈ f.m_symbols.toList,
              f.Decides store timeref attr_timestamp_threshold this_device p.2)
          ↔ ∃ p ∈ f.m_symbols.toList, f.HasEntry num store p
            ∧ f.Judged store timeref attr_timestamp_threshold p.2)) := by
  refine imp_congr_right fun hread => ?_
  by_cases hfits : ∀ p ∈ f.m_symbols.toList, ∃ c, p.2.contribution num store = some c ∧ c.Fits
  · have hlength : ∀ p ∈ f.m_symbols.toList, ∀ r, p.2.contribution num store = some (.texts r) →
        r.attr_value.length ≤ 4294967296 := by
      intro p hp r hc
      obtain ⟨c, hc', hfit⟩ := hfits p hp
      obtain rfl : .texts r = c := Option.some.inj (hc.symm.trans hc')
      exact hfit
    obtain ⟨tables, hfill, hinvalid, hvalid⟩ :=
      f.fillSymbolTable_quality num exprtk store timeref attr_timestamp_threshold hfits
    rw [and_iff_right hlength]
    constructor
    · rintro ⟨tables', attr_quality, hfill', hcompute, hdecides, hnone⟩
      obtain rfl : tables = tables' := Option.some.inj (hfill.symm.trans hfill')
      constructor
      · intro h
        by_contra hnot
        rw [hdecides h, hvalid hnot] at hcompute
        cases hcompute
      · intro h
        by_contra hnot
        rw [hnone hnot, hinvalid h] at hcompute
        cases hcompute
    · intro hiff
      by_cases h : ∃ p ∈ f.m_symbols.toList, f.HasEntry num store p
        ∧ f.Judged store timeref attr_timestamp_threshold p.2
      · exact ⟨tables, .invalid, hfill, hinvalid h, fun _ => rfl, fun hnot => absurd (hiff.mpr h) hnot⟩
      · exact ⟨tables, .valid, hfill, hvalid h, fun hdecides => absurd (hiff.mp hdecides) h, fun _ => rfl⟩
  · -- An array of texts is too long, and the loop over it does not end.
    obtain ⟨p, hp, hnot⟩ : ∃ p ∈ f.m_symbols.toList,
        ¬ ∃ c, p.2.contribution num store = some c ∧ c.Fits := by
      by_contra hall
      exact hfits fun p hp => by_contra fun hnot => hall ⟨p, hp, hnot⟩
    have hlong : ∀ c, p.2.contribution num store = some c → ¬ c.Fits := fun c hc hfit =>
      hnot ⟨c, hc, hfit⟩
    constructor
    · rintro ⟨tables, attr_quality, hfill, -⟩
      rw [fillSymbolTable, addVars_eq_none num exprtk store timeref hp hlong] at hfill
      cases hfill
    · rintro ⟨hlength, -⟩
      obtain ⟨c, hc⟩ := Option.isSome_iff_exists.mp (hread p hp)
      refine absurd ?_ (hlong c hc)
      cases c with
      | texts r => exact hlength p hp r hc
      | number r => exact trivial
      | array r => exact trivial
      | text r => exact trivial
      | skipped => exact trivial

end Variables

def sampleVar : FormulaVar := ⟨0, "temperature", .eATTR_VALUE, some "d/e/f"⟩

def sampleFormula : FormulaData where
  m_formula := "res := x"
  m_symbols := (∅ : FormulaSymbols).insert "x" sampleVar
  m_evaluation_modes := [.change]
  m_attrName := "temperature"

/-- The value of the attribute is invalid. -/
def sampleStore : FormulaStore where
  attr_data _ := some ⟨⟨.short, .scalar (5 : Int16), (0 : Int16), .invalid, ⟨0, 0⟩, true⟩, devShort, [], by decide⟩
  init _ := ⟨"0", devShort, Tango.scalar, 1⟩
  unwritten _ := ⟨0, 0⟩

theorem mem_sampleFormula {p : String × FormulaVar} :
    p ∈ sampleFormula.m_symbols.toList ↔ p = ("x", sampleVar) := by
  obtain ⟨name, v⟩ := p
  rw [ExtTreeMap.mem_toList_iff_getElem?_eq_some, sampleFormula, ExtTreeMap.getElem?_insert]
  by_cases hname : name = "x"
  · subst hname
    simp [eq_comm]
  · simp [hname, Ne.symm hname]

theorem not_qualityExact_sample :
    ¬ sampleFormula.QualityExact sampleNumbers sampleExprtk sampleStore ⟨0, 0⟩ 20 "a/b/c" := by
  intro h
  have hread : ∀ p ∈ sampleFormula.m_symbols.toList,
      ∃ c, p.2.contribution sampleNumbers sampleStore = some c ∧ c.Fits := by
    intro p hp
    rw [mem_sampleFormula.mp hp]
    exact ⟨_, rfl, trivial⟩
  obtain ⟨tables, hfill, -, hvalid⟩ :=
    sampleFormula.fillSymbolTable_quality sampleNumbers sampleExprtk sampleStore ⟨0, 0⟩ 20 hread
  have hjudged : ¬ ∃ p ∈ sampleFormula.m_symbols.toList,
      sampleFormula.HasEntry sampleNumbers sampleStore p
        ∧ sampleFormula.Judged sampleStore ⟨0, 0⟩ 20 p.2 := by
    rintro ⟨p, hp, -, hname, -⟩
    rw [mem_sampleFormula.mp hp] at hname
    exact hname rfl
  have hdecides : ∃ p ∈ sampleFormula.m_symbols.toList,
      sampleFormula.Decides sampleStore ⟨0, 0⟩ 20 "a/b/c" p.2 := by
    refine ⟨("x", sampleVar), mem_sampleFormula.mpr rfl, ?_, .inl ⟨rfl, rfl⟩⟩
    rintro ⟨-, hdevice⟩
    exact absurd (hdevice "d/e/f" rfl) (by decide)
  obtain ⟨tables', attr_quality, hfill', hcompute, hinvalid, -⟩ := h fun p hp => by
    obtain ⟨c, hc, -⟩ := hread p hp
    rw [hc]
    rfl
  obtain rfl : tables = tables' := Option.some.inj (hfill.symm.trans hfill')
  rw [hinvalid hdecides, hvalid hjudged] at hcompute
  cases hcompute

end FormulaData

end DshLmc
