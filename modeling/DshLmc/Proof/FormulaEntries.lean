import DshLmc.Library.MapWrites
import DshLmc.Utils.FormulaSymbolTable

/-!
# The entries of the variables of a formula

Each variable is read in one of four ways, or left out, and the reading is written to one of three maps.
Filling the tables is all these writes one after the other.
-/

namespace DshLmc

open Tango Std

inductive Contribution (T : Type) where
  | number (r : Reading T)
  | array (r : Reading (List T))
  | text (r : Reading String)
  | texts (r : Reading (List String))
  | skipped

variable {T : Type} (num : FormulaNumbers T) (exprtk : Exprtk T) (store : FormulaStore)
  (timeref : TimeVal)

namespace FormulaVar

variable (v : FormulaVar) (var_name : String)

/-- The quality factor of the attribute. It is invalid as long as no value was received. -/
def quality : AttrQuality :=
  match store.attr_data v.address with
  | none => .invalid
  | some attr => if attr.data.m_is_value_set then attr.data.m_data_quality else .invalid

/-- The timestamp of the attribute, when a value was received. -/
def date : Option TimeVal :=
  match store.attr_data v.address with
  | none => none
  | some attr => if attr.data.m_is_value_set then some attr.data.m_timestamp else none

/-- The timestamp in the variable of the getter. -/
def timestamp : TimeVal := (v.date store).getD (store.unwritten v.address)

def contribution : Option (Contribution T) := do
  let (data_format, data_type) ← v.dataInfo store
  let useInitValue := !v.hasAttrData store
  if data_format = Tango.scalar then
    if data_type = devString ∨ data_type = devEnum then
      (v.readString store useInitValue).map .text
    else if data_type = devState then (v.readState num store useInitValue).map .number
    else (v.readNumber num store useInitValue).map .number
  else if data_format = Tango.spectrum then
    if data_type = devString then (v.readStrings store useInitValue).map .texts
    else if data_type = devEnum then none
    else if data_type = devState then (v.readStateSpectrum num store useInitValue).map .array
    else (v.readSpectrum num store useInitValue).map .array
  else some .skipped

def enter (tables : FormulaTables T) : Contribution T → Option (FormulaTables T)
  | .number r => some (v.enterNumber num exprtk timeref var_name r tables)
  | .array r => some (v.enterSpectrum num exprtk timeref var_name r tables)
  | .text r => some (v.enterString num exprtk timeref var_name r tables)
  | .texts r => v.enterStrings num exprtk timeref var_name r tables
  | .skipped => some tables

theorem addToSymbolTable_eq (tables : FormulaTables T) :
    v.addToSymbolTable num exprtk store timeref var_name tables
      = (v.contribution num store).bind (v.enter num exprtk timeref var_name tables) := by
  rw [addToSymbolTable, contribution]
  cases v.dataInfo store with
  | none => rfl
  | some info =>
      obtain ⟨data_format, data_type⟩ := info
      simp only [Option.bind_eq_bind, Option.bind_some]
      generalize (!v.hasAttrData store) = useInitValue
      split_ifs
      · cases h : v.readString store useInitValue <;> simp [addStringVarToSymbolTable, h, enter]
      · cases h : v.readState num store useInitValue <;> simp [addStateVarToSymbolTable, h, enter]
      · cases h : v.readNumber num store useInitValue <;> simp [addNumericVarToSymbolTable, h, enter]
      · cases h : v.readStrings store useInitValue <;>
          simp [addStringSpectrumVarToSymbolTable, h, enter]
      · rfl
      · cases h : v.readStateSpectrum num store useInitValue <;>
          simp [addStateSpectrumVarToSymbolTable, h, enter]
      · cases h : v.readSpectrum num store useInitValue <;>
          simp [addNumericSpectrumVarToSymbolTable, h, enter]
      · rfl

/-! ### What the getters read -/

/-- The reading has the quality factor and the timestamp of the attribute. -/
def Current {K : Type} (r : Reading K) : Prop :=
  r.attr_quality = v.quality store ∧ r.attr_timestamp = v.timestamp store

end FormulaVar

def IsInitGetter {K : Type} (fromInit : ProxyAttrInit → TimeVal → Option (Reading K)) : Prop :=
  ∀ init unwritten r, fromInit init unwritten = some r →
    r.attr_quality = .invalid ∧ r.attr_timestamp = unwritten

def IsDataGetter {K : Type} (fromData : FormulaAttr → Option (Reading K)) : Prop :=
  ∀ attr r, fromData attr = some r →
    r.attr_quality = attr.data.m_data_quality ∧ r.attr_timestamp = attr.data.m_timestamp

theorem isInitGetter_getScalar {K : Type} (extract : String → Option K) :
    IsInitGetter fun init unwritten => init.getScalar extract unwritten := by
  intro init unwritten r h
  obtain ⟨value, -, rfl⟩ := Option.map_eq_some_iff.mp h
  exact ⟨rfl, rfl⟩

theorem isInitGetter_getSpectrum {K : Type} (extract : String → Option K) :
    IsInitGetter fun init unwritten => init.getSpectrum extract unwritten := by
  intro init unwritten r h
  simp only [ProxyAttrInit.getSpectrum] at h
  split_ifs at h
  obtain ⟨value, -, rfl⟩ := Option.map_eq_some_iff.mp h
  exact ⟨rfl, rfl⟩

theorem IsInitGetter.convert {K L : Type} {fromInit : ProxyAttrInit → TimeVal → Option (Reading K)}
    (hinit : IsInitGetter fromInit) (g : K → Option L) :
    IsInitGetter fun init unwritten => (fromInit init unwritten).bind (·.convert g) := by
  intro init unwritten r h
  obtain ⟨r', hr', hconvert⟩ := Option.bind_eq_some_iff.mp h
  obtain ⟨value, -, rfl⟩ := Option.map_eq_some_iff.mp hconvert
  exact hinit init unwritten r' hr'

theorem isDataGetter_getScalarAttrData : IsDataGetter (·.getScalarAttrData num) := by
  intro attr r h
  simp only [FormulaAttr.getScalarAttrData] at h
  split at h
  · cases h
  · obtain ⟨value, -, rfl⟩ := Option.map_eq_some_iff.mp h
    exact ⟨rfl, rfl⟩

theorem isDataGetter_getSpectrumAttrData : IsDataGetter (·.getSpectrumAttrData num) := by
  intro attr r h
  simp only [FormulaAttr.getSpectrumAttrData] at h
  split at h
  · cases h
  · split_ifs at h
    cases h
    exact ⟨rfl, rfl⟩

theorem isDataGetter_getScalarAttrText : IsDataGetter FormulaAttr.getScalarAttrText := by
  intro attr r h
  simp only [FormulaAttr.getScalarAttrText] at h
  split at h
  · cases h
    exact ⟨rfl, rfl⟩
  · obtain ⟨value, -, rfl⟩ := Option.map_eq_some_iff.mp h
    exact ⟨rfl, rfl⟩
  · cases h

theorem isDataGetter_getSpectrumAttrText : IsDataGetter FormulaAttr.getSpectrumAttrText := by
  intro attr r h
  simp only [FormulaAttr.getSpectrumAttrText] at h
  split at h
  · cases h
    exact ⟨rfl, rfl⟩
  · cases h

namespace FormulaVar

variable (v : FormulaVar) (var_name : String) {store}

theorem current_reading {K : Type} {fromInit : ProxyAttrInit → TimeVal → Option (Reading K)}
    {fromData : FormulaAttr → Option (Reading K)} (hinit : IsInitGetter fromInit)
    (hdata : IsDataGetter fromData) (hinfo : (v.dataInfo store).isSome) {r : Reading K}
    (h : v.reading store (!v.hasAttrData store) fromInit fromData = some r) : v.Current store r := by
  have hexpected : (v.expectedInfo store).isSome → v.is_proxy_attr = true := by
    intro hsome
    by_contra hinternal
    rw [expectedInfo, if_neg hinternal] at hsome
    cases hsome
  rw [reading, hasAttrData] at h
  rw [dataInfo] at hinfo
  rw [Current, timestamp, quality, date]
  cases hattr : store.attr_data v.address with
  | none =>
      simp only [hattr] at h hinfo
      rw [hexpected hinfo] at h
      exact hinit _ _ _ h
  | some attr =>
      simp only [hattr] at h hinfo
      by_cases hset : attr.data.m_is_value_set = true
      · simp only [hset, Bool.not_true, Bool.and_false, Bool.false_eq_true, if_false, if_true] at h ⊢
        exact hdata attr r h
      · rw [if_neg hset] at hinfo
        rw [Bool.not_eq_true] at hset
        simp only [hset, hexpected hinfo, Bool.not_false, Bool.and_true, if_true, Bool.false_eq_true,
          if_false] at h ⊢
        exact hinit _ _ _ h

variable (store) in
/-- Whatever is entered was read so. -/
def CurrentContribution : Contribution T → Prop
  | .number r => v.Current store r
  | .array r => v.Current store r
  | .text r => v.Current store r
  | .texts r => v.Current store r
  | .skipped => True

theorem current_contribution {c : Contribution T} (h : v.contribution num store = some c) :
    v.CurrentContribution store c := by
  rw [contribution] at h
  obtain ⟨⟨data_format, data_type⟩, hinfo, h⟩ := Option.bind_eq_some_iff.mp h
  replace hinfo : (v.dataInfo store).isSome := Option.isSome_iff_exists.mpr ⟨_, hinfo⟩
  dsimp only at h
  split_ifs at h
  · obtain ⟨r, hr, rfl⟩ := Option.map_eq_some_iff.mp h
    exact v.current_reading (isInitGetter_getScalar _) isDataGetter_getScalarAttrText hinfo hr
  · obtain ⟨r, hr, rfl⟩ := Option.map_eq_some_iff.mp h
    exact v.current_reading ((isInitGetter_getScalar _).convert _) (isDataGetter_getScalarAttrData num)
      hinfo hr
  · obtain ⟨r, hr, rfl⟩ := Option.map_eq_some_iff.mp h
    exact v.current_reading (isInitGetter_getScalar _) (isDataGetter_getScalarAttrData num) hinfo hr
  · obtain ⟨r, hr, rfl⟩ := Option.map_eq_some_iff.mp h
    exact v.current_reading (isInitGetter_getSpectrum _) isDataGetter_getSpectrumAttrText hinfo hr
  · obtain ⟨r, hr, rfl⟩ := Option.map_eq_some_iff.mp h
    exact v.current_reading ((isInitGetter_getSpectrum _).convert _)
      (isDataGetter_getSpectrumAttrData num) hinfo hr
  · obtain ⟨r, hr, rfl⟩ := Option.map_eq_some_iff.mp h
    exact v.current_reading (isInitGetter_getSpectrum _) (isDataGetter_getSpectrumAttrData num) hinfo
      hr
  · cases h
    exact trivial

end FormulaVar

/-- Writes to each of the three maps. -/
structure FormulaWrites (T : Type) where
  numbers : List (MapWrite String (FormulaVarData T))
  arrays : List (MapWrite String (FormulaVarData (List T)))
  texts : List (MapWrite String (FormulaVarData String))

def FormulaDataValues.write (data_values : FormulaDataValues T) (w : FormulaWrites T) :
    FormulaDataValues T :=
  { scalar_values := w.numbers.foldl MapWrite.apply data_values.scalar_values
    spectrum_values := w.arrays.foldl MapWrite.apply data_values.spectrum_values
    scalar_string_values := w.texts.foldl MapWrite.apply data_values.scalar_string_values }

theorem FormulaDataValues.write_write (data_values : FormulaDataValues T) (w w' : FormulaWrites T) :
    (data_values.write w).write w'
      = data_values.write ⟨w.numbers ++ w'.numbers, w.arrays ++ w'.arrays, w.texts ++ w'.texts⟩ := by
  simp only [FormulaDataValues.write, List.foldl_append]

/-- The index of an array of texts does not wrap. -/
def Contribution.Fits : Contribution T → Prop
  | .texts r => r.attr_value.length ≤ 4294967296
  | _ => True

namespace FormulaVar

variable (v : FormulaVar) (var_name : String)

def elementWrites (r : Reading (List String)) : List (MapWrite String (FormulaVarData String)) :=
  r.attr_value.mapIdx fun i attr_value => .insert (elementName var_name i)
    ⟨attr_value, r.attr_quality, getTimeDiffSec timeref r.attr_timestamp, var_name, v.attr_name⟩

def writes : Contribution T → FormulaWrites T
  | .number r =>
      ⟨[.insertIfNew var_name (v.varData var_name r (getTimeDiffSec r.attr_timestamp timeref))], [], []⟩
  | .array r =>
      ⟨[], [.insert var_name (v.varData var_name r (getTimeDiffSec timeref r.attr_timestamp))], []⟩
  | .text r =>
      ⟨[], [], [.insertIfNew var_name (v.varData var_name r (getTimeDiffSec timeref r.attr_timestamp))]⟩
  | .texts r => ⟨[], [], v.elementWrites timeref var_name r⟩
  | .skipped => ⟨[], [], []⟩

def allWrites : FormulaWrites T :=
  (v.contribution num store).elim ⟨[], [], []⟩ (v.writes timeref var_name)

theorem data_values_enterElements (attr_quality : AttrQuality) (dt : Int) (i : Nat)
    (values : List String) (tables : FormulaTables T) :
    (v.enterElements num exprtk var_name attr_quality dt i values tables).data_values
      = tables.data_values.write ⟨[], [], values.mapIdx fun j attr_value =>
        .insert (elementName var_name (i + j)) ⟨attr_value, attr_quality, dt, var_name, v.attr_name⟩⟩ := by
  induction values generalizing i tables with
  | nil => rfl
  | cons attr_value rest ih =>
      rw [enterElements, ih, List.mapIdx_cons]
      have hshift : ∀ j, i + 1 + j = i + (j + 1) := fun j => by omega
      simp only [hshift, FormulaDataValues.write, enterElement, List.foldl_cons, MapWrite.apply,
        Nat.add_zero, List.foldl_nil]

/-- **One variable.** -/
theorem enter_eq_some {c : Contribution T} (hfits : c.Fits) (tables : FormulaTables T) :
    ∃ tables', v.enter num exprtk timeref var_name tables c = some tables'
      ∧ tables'.data_values = tables.data_values.write (v.writes timeref var_name c) := by
  cases c with
  | number r => exact ⟨_, rfl, rfl⟩
  | array r => exact ⟨_, rfl, rfl⟩
  | text r => exact ⟨_, rfl, rfl⟩
  | texts r =>
      refine ⟨_, if_neg (Nat.not_lt.mpr hfits), ?_⟩
      rw [data_values_enterElements]
      simp only [Nat.zero_add, writes, elementWrites]
  | skipped => exact ⟨_, rfl, rfl⟩

theorem enter_eq_none {c : Contribution T} (hlong : ¬ c.Fits) (tables : FormulaTables T) :
    v.enter num exprtk timeref var_name tables c = none := by
  cases c with
  | texts r => exact if_pos (Nat.not_le.mp hlong)
  | number r => exact absurd trivial hlong
  | array r => exact absurd trivial hlong
  | text r => exact absurd trivial hlong
  | skipped => exact absurd trivial hlong

end FormulaVar

namespace FormulaData

section Fill

/-- What all the variables write. -/
def writesOf (vars : List (String × FormulaVar)) : FormulaWrites T :=
  ⟨vars.flatMap fun p => (p.2.allWrites num store timeref p.1).numbers,
    vars.flatMap fun p => (p.2.allWrites num store timeref p.1).arrays,
    vars.flatMap fun p => (p.2.allWrites num store timeref p.1).texts⟩

/-- **All the variables.** -/
theorem addVars_eq_some {vars : List (String × FormulaVar)}
    (h : ∀ p ∈ vars, ∃ c, p.2.contribution num store = some c ∧ c.Fits) (tables : FormulaTables T) :
    ∃ tables', addVars num exprtk store timeref vars tables = some tables'
      ∧ tables'.data_values = tables.data_values.write (writesOf num store timeref vars) := by
  induction vars generalizing tables with
  | nil => exact ⟨tables, rfl, rfl⟩
  | cons p rest ih =>
      obtain ⟨var_name, v⟩ := p
      obtain ⟨c, hc, hfits⟩ := h _ List.mem_cons_self
      obtain ⟨tables', henter, hvalues⟩ := v.enter_eq_some num exprtk timeref var_name hfits tables
      obtain ⟨last, hlast, hlastvalues⟩ := ih (fun q hq => h q (List.mem_cons_of_mem _ hq)) tables'
      refine ⟨last, ?_, ?_⟩
      · rw [addVars, FormulaVar.addToSymbolTable_eq, hc, Option.bind_some, henter]
        exact hlast
      · rw [hlastvalues, hvalues, FormulaDataValues.write_write]
        simp only [writesOf, FormulaVar.allWrites, List.flatMap_cons, hc, Option.elim_some]

theorem addVars_eq_none {vars : List (String × FormulaVar)} {p : String × FormulaVar} (hp : p ∈ vars)
    (h : ∀ c, p.2.contribution num store = some c → ¬ c.Fits) (tables : FormulaTables T) :
    addVars num exprtk store timeref vars tables = none := by
  induction vars generalizing tables with
  | nil => cases hp
  | cons q rest ih =>
      obtain ⟨var_name, v⟩ := q
      rw [addVars, FormulaVar.addToSymbolTable_eq]
      obtain rfl | hp := List.mem_cons.mp hp
      · cases hc : v.contribution num store with
        | none => rfl
        | some c =>
            rw [Option.bind_some, v.enter_eq_none num exprtk timeref var_name (h c hc)]
            rfl
      · cases (v.contribution num store).bind (v.enter num exprtk timeref var_name tables) with
        | none => rfl
        | some tables' => exact ih hp tables'

variable {vars : List (String × FormulaVar)}

theorem mem_numbers {w : MapWrite String (FormulaVarData T)} :
    w ∈ (writesOf num store timeref vars).numbers
      ↔ ∃ p ∈ vars, ∃ r, p.2.contribution num store = some (.number r)
        ∧ w = .insertIfNew p.1 (p.2.varData p.1 r (getTimeDiffSec r.attr_timestamp timeref)) := by
  rw [writesOf, List.mem_flatMap]
  refine exists_congr fun p => and_congr_right fun _ => ?_
  cases hc : p.2.contribution num store with
  | none => simp [FormulaVar.allWrites, hc]
  | some c => cases c <;> simp [FormulaVar.allWrites, hc, FormulaVar.writes]

theorem mem_arrays {w : MapWrite String (FormulaVarData (List T))} :
    w ∈ (writesOf num store timeref vars).arrays
      ↔ ∃ p ∈ vars, ∃ r, p.2.contribution num store = some (.array r)
        ∧ w = .insert p.1 (p.2.varData p.1 r (getTimeDiffSec timeref r.attr_timestamp)) := by
  rw [writesOf, List.mem_flatMap]
  refine exists_congr fun p => and_congr_right fun _ => ?_
  cases hc : p.2.contribution num store with
  | none => simp [FormulaVar.allWrites, hc]
  | some c => cases c <;> simp [FormulaVar.allWrites, hc, FormulaVar.writes]

theorem mem_texts {w : MapWrite String (FormulaVarData String)} :
    w ∈ (writesOf num store timeref vars).texts
      ↔ ∃ p ∈ vars,
        (∃ r, p.2.contribution num store = some (.text r)
          ∧ w = .insertIfNew p.1 (p.2.varData p.1 r (getTimeDiffSec timeref r.attr_timestamp)))
        ∨ ∃ r, p.2.contribution num store = some (.texts r) ∧ ∃ i attr_value,
          r.attr_value[i]? = some attr_value ∧ w = .insert (elementName p.1 i)
            ⟨attr_value, r.attr_quality, getTimeDiffSec timeref r.attr_timestamp, p.1, p.2.attr_name⟩ := by
  rw [writesOf, List.mem_flatMap]
  refine exists_congr fun p => and_congr_right fun _ => ?_
  cases hc : p.2.contribution num store with
  | none => simp [FormulaVar.allWrites, hc]
  | some c =>
      cases c with
      | texts r =>
          simp only [FormulaVar.allWrites, hc, Option.elim_some, FormulaVar.writes, FormulaVar.elementWrites, List.mem_mapIdx,
            Option.some.injEq, reduceCtorEq, false_and, exists_false, false_or, Contribution.texts.injEq,
            exists_eq_left']
          constructor
          · rintro ⟨i, hi, rfl⟩
            exact ⟨i, _, List.getElem?_eq_getElem hi, rfl⟩
          · rintro ⟨i, attr_value, hvalue, rfl⟩
            obtain ⟨hi, rfl⟩ := List.getElem?_eq_some_iff.mp hvalue
            exact ⟨i, hi, rfl⟩
      | number r => simp [FormulaVar.allWrites, hc, FormulaVar.writes]
      | array r => simp [FormulaVar.allWrites, hc, FormulaVar.writes]
      | text r => simp [FormulaVar.allWrites, hc, FormulaVar.writes]
      | skipped => simp [FormulaVar.allWrites, hc, FormulaVar.writes]

end Fill

end FormulaData

end DshLmc
