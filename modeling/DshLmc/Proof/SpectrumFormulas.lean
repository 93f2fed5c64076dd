import DshLmc.Core.DynSpectrum
import DshLmc.Proof.FormulaQuality

/-!
# The results of spectrum formulas

The vector of an expression of numbers has no entries, so the result has none. The string variables of
an expression of texts are as many as the elements, and each of them is in the result unless the formula
has a number of that name.
-/

namespace DshLmc

open Tango

variable {T : Type} (num : FormulaNumbers T) (exprtk : Exprtk T)

/-! ### What a name stands for -/

inductive SymbolKind where
  | number
  | text
  | vector
deriving DecidableEq

def FormulaSymbol.kind : FormulaSymbol T → SymbolKind
  | .value _ => .number
  | .text _ => .text
  | .vector _ => .vector

/-- The first symbol of a name, vectors apart. -/
def firstKind (name : String) (symbols : List (String × SymbolKind)) : Option SymbolKind :=
  (symbols.find? fun s => sameName s.1 name && s.2 ≠ .vector).map (·.2)

theorem firstKind_append (name : String) (symbols rest : List (String × SymbolKind)) :
    firstKind name (symbols ++ rest) = (firstKind name symbols).or (firstKind name rest) := by
  rw [firstKind, List.find?_append, Option.map_or]
  rfl

/-- The symbols that may be added at all. -/
def validKinds (symbols : List (String × SymbolKind)) : List (String × SymbolKind) :=
  symbols.filter fun s => exprtk.valid_symbol s.1

namespace SymbolTable

def kinds (symbol_table : SymbolTable T) : List (String × SymbolKind) :=
  symbol_table.symbols.map fun s => (s.1, s.2.kind)

theorem firstKind_kinds (symbol_table : SymbolTable T) (name : String) :
    firstKind name symbol_table.kinds = (symbol_table.symbol? name).map (·.2.kind) := by
  rw [firstKind, kinds, symbol?, List.find?_map, Option.map_map]
  have hpred : ((fun s : String × SymbolKind => sameName s.1 name && decide (s.2 ≠ .vector))
      ∘ fun s : String × FormulaSymbol T => (s.1, s.2.kind))
      = fun s => sameName s.1 name && !s.2.isVector := by
    funext s
    cases hs : s.2 <;> simp [FormulaSymbol.kind, FormulaSymbol.isVector, hs]
  rw [hpred]
  rfl

/-- **One addition.** -/
theorem firstKind_add (symbol_table : SymbolTable T) (name added : String) (symbol : FormulaSymbol T) :
    firstKind name (symbol_table.add exprtk added symbol).kinds
      = (firstKind name symbol_table.kinds).or
        (firstKind name (validKinds exprtk [(added, symbol.kind)])) := by
  have hkinds : validKinds exprtk [(added, symbol.kind)]
      = if exprtk.valid_symbol added then [(added, symbol.kind)] else [] := by
    by_cases hvalid : exprtk.valid_symbol added = true <;> simp [validKinds, hvalid]
  rw [hkinds, add]
  by_cases hvalid : exprtk.valid_symbol added = true
  swap
  · rw [Bool.not_eq_true] at hvalid
    simp [hvalid, firstKind]
  rw [if_pos hvalid]
  by_cases hexists : symbol_table.symbolExists added = true
  · rw [if_pos (by simp [hexists])]
    cases hfirst : firstKind name symbol_table.kinds with
    | some kind => rfl
    | none =>
        -- What is there under the added name is there under this one.
        obtain ⟨s, hs, hsame⟩ := List.any_eq_true.mp hexists
        rw [Bool.and_eq_true] at hsame
        rw [firstKind_kinds, Option.map_eq_none_iff, symbol?, List.find?_eq_none] at hfirst
        have hother : ¬ sameName added name = true := by
          intro hadded
          refine hfirst s hs ?_
          rw [Bool.and_eq_true, sameName_iff, sameName_iff.mp hsame.1]
          exact ⟨sameName_iff.mp hadded, hsame.2⟩
        simp [firstKind, hother]
  rw [Bool.not_eq_true] at hexists
  rw [if_neg (by simp [hvalid, hexists])]
  by_cases hvector : (symbol.isVector && symbol_table.vectorExists added) = true
  · rw [if_pos hvector]
    have hkind : symbol.kind = .vector := by
      cases symbol with
      | vector values => rfl
      | value value => cases hvector
      | text text => cases hvector
    simp [firstKind, hkind]
  · rw [if_neg hvector, kinds, List.map_append, firstKind_append]
    rfl

theorem firstKind_add_of_some {symbol_table : SymbolTable T} {name : String} {kind : SymbolKind}
    (h : firstKind name symbol_table.kinds = some kind) (added : String) (symbol : FormulaSymbol T) :
    firstKind name (symbol_table.add exprtk added symbol).kinds = some kind := by
  rw [firstKind_add, h, Option.some_or]

theorem firstKind_addConstants_of_some {symbol_table : SymbolTable T} {name : String}
    {kind : SymbolKind} (h : firstKind name symbol_table.kinds = some kind)
    (constants : List (String × T)) :
    firstKind name (symbol_table.addConstants exprtk constants).kinds = some kind := by
  induction constants generalizing symbol_table with
  | nil => exact h
  | cons c rest ih => exact ih (firstKind_add_of_some exprtk h c.1 (.value c.2))

theorem firstKind_foldl_add {α : Type} (addedName : α → String) (added : α → FormulaSymbol T)
    (xs : List α) (symbol_table : SymbolTable T) (name : String) :
    firstKind name
        (xs.foldl (fun table x => table.add exprtk (addedName x) (added x)) symbol_table).kinds
      = (firstKind name symbol_table.kinds).or
        (firstKind name (validKinds exprtk (xs.map fun x => (addedName x, (added x).kind)))) := by
  induction xs generalizing symbol_table with
  | nil => rw [List.foldl_nil, List.map_nil, validKinds, List.filter_nil]; exact Option.or_none.symm
  | cons x rest ih =>
      rw [List.foldl_cons, ih, firstKind_add, Option.or_assoc, ← firstKind_append, validKinds, validKinds,
        ← List.filter_append, List.map_cons, List.singleton_append, validKinds]

theorem firstKind_results {n i : Nat} (hi : i < n) :
    firstKind (elementName "res" i)
        (validKinds exprtk ((List.range n).map fun j => (elementName "res" j, SymbolKind.text)))
      = some .text := by
  rw [validKinds, List.filter_eq_self.mpr, firstKind, List.find?_map, Option.map_map]
  · have hsome : ((List.range n).find? ((fun s : String × SymbolKind =>
        sameName s.1 (elementName "res" i) && decide (s.2 ≠ .vector))
        ∘ fun j => (elementName "res" j, SymbolKind.text))).isSome := by
      rw [List.find?_isSome]
      exact ⟨i, List.mem_range.mpr hi, by simp⟩
    obtain ⟨j, hj⟩ := Option.isSome_iff_exists.mp hsome
    rw [hj]
    rfl
  · intro s hs
    obtain ⟨j, -, rfl⟩ := List.mem_map.mp hs
    exact exprtk.valid_res j

theorem firstKind_addResults (symbol_table : SymbolTable T) {n i : Nat} (hi : i < n) :
    firstKind (elementName "res" i) (symbol_table.addResults exprtk n).kinds
      = some ((firstKind (elementName "res" i) symbol_table.kinds).getD .text) := by
  have hadd := firstKind_foldl_add exprtk (elementName "res") (fun _ => .text "") (List.range n)
    symbol_table (elementName "res" i)
  rw [addResults]
  refine hadd.trans ?_
  simp only [FormulaSymbol.kind]
  rw [firstKind_results exprtk hi]
  cases firstKind (elementName "res" i) symbol_table.kinds <;> rfl

end SymbolTable

variable (store : FormulaStore) (timeref : TimeVal)

namespace FormulaVar

variable (v : FormulaVar) (var_name : String)

def kind (ofValue : SymbolKind) : SymbolKind :=
  match v.attr_value_type with
  | .eATTR_QUALITY_FACTOR => .number
  | .eATTR_VALUE => ofValue

theorem kind_symbol {K : Type} (data : FormulaVarData K) {ofValue : K → FormulaSymbol T}
    {kind : SymbolKind} (h : ∀ x, (ofValue x).kind = kind) :
    (v.symbol num data ofValue).kind = v.kind kind := by
  rw [symbol, FormulaVar.kind]
  cases v.attr_value_type with
  | eATTR_QUALITY_FACTOR => rfl
  | eATTR_VALUE => exact h data.attr_value

theorem kind_symbol_value (data : FormulaVarData T) :
    (v.symbol num data .value).kind = v.kind .number := v.kind_symbol num data fun _ => rfl

theorem kind_symbol_vector (data : FormulaVarData (List T)) :
    (v.symbol num data .vector).kind = v.kind .vector := v.kind_symbol num data fun _ => rfl

theorem kind_symbol_text (data : FormulaVarData String) :
    (v.symbol num data .text).kind = v.kind .text := v.kind_symbol num data fun _ => rfl

/-- What the names stand for that a variable enters. -/
def enteredKinds : Contribution T → List (String × SymbolKind)
  | .number _ => [(var_name, v.kind .number)]
  | .array _ => [(var_name, v.kind .vector)]
  | .text _ => [(var_name, v.kind .text)]
  | .texts r => r.attr_value.mapIdx fun i _ => (elementName var_name i, v.kind .text)
  | .skipped => []

theorem firstKind_enterElements (attr_quality : AttrQuality) (dt : Int) (i : Nat)
    (values : List String) (tables : FormulaTables T) (name : String) :
    firstKind name
        (v.enterElements num exprtk var_name attr_quality dt i values tables).symbol_table.kinds
      = (firstKind name tables.symbol_table.kinds).or (firstKind name (validKinds exprtk
        (values.mapIdx fun j _ => (elementName var_name (i + j), v.kind .text)))) := by
  induction values generalizing i tables with
  | nil => exact Option.or_none.symm
  | cons attr_value rest ih =>
      have hshift : ∀ j, i + 1 + j = i + (j + 1) := fun j => by omega
      rw [enterElements, ih, enterElement, SymbolTable.firstKind_add,
        v.kind_symbol_text num, Option.or_assoc, ← firstKind_append, validKinds, validKinds,
        ← List.filter_append, List.singleton_append, List.mapIdx_cons, validKinds]
      simp only [hshift, Nat.add_zero]

/-- **One variable.** -/
theorem firstKind_enter {c : Contribution T} {tables tables' : FormulaTables T}
    (h : v.enter num exprtk timeref var_name tables c = some tables') (name : String) :
    firstKind name tables'.symbol_table.kinds = (firstKind name tables.symbol_table.kinds).or
      (firstKind name (validKinds exprtk (v.enteredKinds var_name c))) := by
  cases c with
  | number r =>
      cases h
      rw [enterNumber, SymbolTable.firstKind_add, v.kind_symbol_value num, enteredKinds]
  | array r =>
      cases h
      rw [enterSpectrum, SymbolTable.firstKind_add, v.kind_symbol_vector num, enteredKinds]
  | text r =>
      cases h
      rw [enterString, SymbolTable.firstKind_add, v.kind_symbol_text num, enteredKinds]
  | texts r =>
      rw [enter, enterStrings] at h
      split_ifs at h
      cases h
      rw [firstKind_enterElements, enteredKinds]
      simp only [Nat.zero_add]
  | skipped =>
      cases h
      exact Option.or_none.symm

end FormulaVar

namespace FormulaData

/-- What the names stand for that the variables enter. -/
def kindsOf (vars : List (String × FormulaVar)) : List (String × SymbolKind) :=
  vars.flatMap fun p => (p.2.contribution num store).elim [] (p.2.enteredKinds p.1)

theorem firstKind_addVars {vars : List (String × FormulaVar)} {tables tables' : FormulaTables T}
    (h : addVars num exprtk store timeref vars tables = some tables') (name : String) :
    firstKind name tables'.symbol_table.kinds = (firstKind name tables.symbol_table.kinds).or
      (firstKind name (validKinds exprtk (kindsOf num store vars))) := by
  induction vars generalizing tables with
  | nil =>
      cases h
      exact Option.or_none.symm
  | cons p rest ih =>
      obtain ⟨var_name, v⟩ := p
      rw [addVars, FormulaVar.addToSymbolTable_eq] at h
      obtain ⟨next, hnext, hrest⟩ := Option.bind_eq_some_iff.mp h
      obtain ⟨c, hc, henter⟩ := Option.bind_eq_some_iff.mp hnext
      rw [ih hrest, v.firstKind_enter num exprtk timeref var_name henter, Option.or_assoc,
        ← firstKind_append, validKinds, validKinds, ← List.filter_append]
      simp only [kindsOf, List.flatMap_cons, hc, Option.elim_some, validKinds]

variable (f : FormulaData) (attr_timestamp_threshold data_size : Int)

theorem evaluateSpectrumFormula_of_ne {K : ElementType} (hK : K ≠ .string) :
    f.evaluateSpectrumFormula num exprtk store timeref attr_timestamp_threshold data_size K
      = f.evaluateNumericSpectrum num exprtk store timeref attr_timestamp_threshold data_size K := by
  cases K with
  | string => exact absurd rfl hK
  | state => rfl
  | float => rfl
  | double => rfl
  | long => rfl
  | short => rfl
  | boolean => rfl

variable {num exprtk store timeref f attr_timestamp_threshold data_size}

theorem evaluateNumericSpectrum_eq_some {K : ElementType} {formula_result : List K.Carrier}
    {formula_attr_quality : AttrQuality}
    (h : f.evaluateNumericSpectrum num exprtk store timeref attr_timestamp_threshold data_size K
      = some (formula_result, formula_attr_quality)) :
    0 < data_size ∧ formula_result = [] := by
  simp only [evaluateNumericSpectrum] at h
  split_ifs at h with hsize
  obtain ⟨tables, -, h⟩ := Option.bind_eq_some_iff.mp h
  obtain ⟨assignment, -, h⟩ := Option.bind_eq_some_iff.mp h
  obtain ⟨attr_quality, -, h⟩ := Option.bind_eq_some_iff.mp h
  cases h
  exact ⟨Int.not_le.mp hsize, rfl⟩

theorem evaluateStringSpectrum_eq_some {formula_result : List String}
    {formula_attr_quality : AttrQuality}
    (h : f.evaluateStringSpectrum num exprtk store timeref attr_timestamp_threshold data_size
      = some (formula_result, formula_attr_quality)) :
    0 < data_size ∧ ∃ tables assignment, f.fillSymbolTable num exprtk store timeref = some tables
      ∧ exprtk.evaluate f.m_formula (stringTable num exprtk data_size.toNat tables.symbol_table)
        = some assignment
      ∧ formula_result = (List.range data_size.toNat).map fun i =>
        (stringTable num exprtk data_size.toNat tables.symbol_table).stringvarRef exprtk assignment
          (elementName "res" i) := by
  rw [evaluateStringSpectrum] at h
  split_ifs at h with hsize
  obtain ⟨tables, hfill, h⟩ := Option.bind_eq_some_iff.mp h
  obtain ⟨assignment, hassignment, h⟩ := Option.bind_eq_some_iff.mp h
  obtain ⟨result, hresult, h⟩ := Option.bind_eq_some_iff.mp h
  obtain ⟨attr_quality, -, h⟩ := Option.bind_eq_some_iff.mp h
  cases h
  rw [readResults] at hresult
  split_ifs at hresult
  cases hresult
  exact ⟨Int.not_le.mp hsize, tables, assignment, hfill, hassignment, rfl⟩

theorem exists_result_of_set {K : ElementType} {attr_name : String} {now : TimeVal} {pushed : Bool}
    {attr attr' : DynSpectrum K}
    (h : attr.setFormulaSpectrumDynAttrValue num exprtk store timeref f attr_timestamp_threshold
      attr_name data_size now pushed = (none, attr')) :
    ∃ formula_result formula_attr_quality,
      f.evaluateSpectrumFormula num exprtk store timeref attr_timestamp_threshold data_size K
        = some (formula_result, formula_attr_quality)
      ∧ attr'.attr_data.m_data = formula_result := by
  rw [DynSpectrum.setFormulaSpectrumDynAttrValue] at h
  cases heval : f.evaluateSpectrumFormula num exprtk store timeref attr_timestamp_threshold data_size K with
  | none =>
      rw [heval] at h
      cases h
  | some result =>
      obtain ⟨formula_result, formula_attr_quality⟩ := result
      rw [heval] at h
      refine ⟨formula_result, formula_attr_quality, rfl, ?_⟩
      simp only [DynSpectrum.setDynAttrValue] at h
      by_cases hformat : attr.data_format = Tango.spectrum
      swap
      · simp [hformat] at h
      by_cases hsize : attr.max_dim_x < formula_result.length
      · simp [hformat, hsize] at h
      by_cases hlabels : DynSpectrum.labelled K attr.enum_labels formula_result = true
      swap
      · simp [hformat, hsize, hlabels] at h
      cases pushed with
      | false => simp [hformat, hsize, hlabels, SpectrumAttrData.setData] at h
      | true =>
          simp only [hformat, hsize, hlabels, SpectrumAttrData.setData, ne_eq, not_true_eq_false,
            if_false, Bool.not_true, Bool.false_eq_true, Int.lt_irrefl, if_true, Prod.mk.injEq,
            true_and] at h
          rw [← h]
          rfl

theorem firstKind_ne_vector (name : String) (symbols : List (String × SymbolKind)) :
    firstKind name symbols ≠ some .vector := by
  intro h
  obtain ⟨s, hs, hkind⟩ := Option.map_eq_some_iff.mp h
  have hpred := List.find?_some hs
  rw [hkind] at hpred
  simp at hpred

theorem isSome_stringvar?_iff {tables : FormulaTables T}
    (hfill : f.fillSymbolTable num exprtk store timeref = some tables) (assignment : Assignment T)
    {n i : Nat} (hi : i < n) :
    ((stringTable num exprtk n tables.symbol_table).stringvar? assignment (elementName "res" i)).isSome
      ↔ firstKind (elementName "res" i) (validKinds exprtk (kindsOf num store f.m_symbols.toList))
        ≠ some .number := by
  have hfilled := firstKind_addVars num exprtk store timeref hfill (elementName "res" i)
  have hresults := SymbolTable.firstKind_addResults exprtk tables.symbol_table hi
  rw [hfilled] at hresults
  have htable := SymbolTable.firstKind_addConstants_of_some exprtk hresults
    ((tangoStateStrMap.map fun c => (c.1, num.static_cast .state c.2))
      ++ attrQualityConstants.map fun c => (c.1, num.quality c.2))
  have hvector := firstKind_ne_vector (elementName "res" i)
    (validKinds exprtk (kindsOf num store f.m_symbols.toList))
  change firstKind _ (stringTable num exprtk n tables.symbol_table).kinds = _ at htable
  rw [SymbolTable.firstKind_kinds] at htable
  obtain ⟨⟨name, symbol⟩, hsymbol, hkind⟩ := Option.map_eq_some_iff.mp htable
  rw [SymbolTable.stringvar?, hsymbol]
  have hempty : firstKind (elementName "res" i) ({} : FormulaTables T).symbol_table.kinds = none := rfl
  rw [hempty, Option.none_or] at hkind
  revert hkind hvector
  generalize firstKind (elementName "res" i) (validKinds exprtk (kindsOf num store f.m_symbols.toList))
    = first
  intro hvector hkind
  cases symbol with
  | value value =>
      cases first with
      | none => cases hkind
      | some kind =>
          obtain rfl : SymbolKind.number = kind := hkind
          simp
  | text text =>
      cases first with
      | none => simp
      | some kind =>
          obtain rfl : SymbolKind.text = kind := hkind
          simp
  | vector values =>
      cases first with
      | none => cases hkind
      | some kind =>
          obtain rfl : SymbolKind.vector = kind := hkind
          exact absurd rfl hvector

variable (num exprtk store timeref f attr_timestamp_threshold data_size)

/-- The value that the expression gives to `res[i]`. -/
def assignedNumber (K : ElementType) (i : Nat) : Option K.Carrier := do
  let tables ← f.fillSymbolTable num exprtk store timeref
  let assignment ← exprtk.evaluate f.m_formula (numericTable num exprtk [] tables.symbol_table)
  return num.result K (assignment.entry (lowerChars "res") i)

/-- The text that the expression gives to `res_<i>`, if that is a string variable. -/
def assignedText (i : Nat) : Option String := do
  let tables ← f.fillSymbolTable num exprtk store timeref
  let symbol_table := stringTable num exprtk data_size.toNat tables.symbol_table
  let assignment ← exprtk.evaluate f.m_formula symbol_table
  symbol_table.stringvar? assignment (elementName "res" i)

def assigned : (K : ElementType) → Nat → Option K.Carrier
  | .string => f.assignedText num exprtk store timeref data_size
  | K => f.assignedNumber num exprtk store timeref K

/-- The result has `data_size` elements, which the expression gave, and an attribute of this size gets
a spectrum of its size. -/
structure ComputedResult (K : ElementType) (formula_result : List K.Carrier) : Prop where
  size : (formula_result.length : Int) = data_size
  entries : ∀ i < data_size.toNat, ∃ value,
    f.assigned num exprtk store timeref data_size K i = some value ∧ formula_result[i]? = some value
  stored : ∀ (attr_name : String) (now : TimeVal) (pushed : Bool) (attr attr' : DynSpectrum K),
    attr.max_dim_x = data_size →
    attr.setFormulaSpectrumDynAttrValue num exprtk store timeref f attr_timestamp_threshold attr_name
      data_size now pushed = (none, attr') →
    (attr'.attr_data.m_data.length : Int) = attr.max_dim_x

variable {num exprtk store timeref f attr_timestamp_threshold data_size}

theorem assignedText_eq {tables : FormulaTables T} {assignment : Assignment T}
    (hfill : f.fillSymbolTable num exprtk store timeref = some tables)
    (hassignment : exprtk.evaluate f.m_formula
      (stringTable num exprtk data_size.toNat tables.symbol_table) = some assignment) (i : Nat) :
    f.assignedText num exprtk store timeref data_size i
      = (stringTable num exprtk data_size.toNat tables.symbol_table).stringvar? assignment
        (elementName "res" i) := by
  simp only [assignedText, hfill, hassignment, Option.bind_eq_bind, Option.bind_some]

theorem getElem?_map_range {α : Type} (g : Nat → α) {n i : Nat} (hi : i < n) :
    ((List.range n).map g)[i]? = some (g i) := by
  rw [List.getElem?_map, List.getElem?_range hi, Option.map_some]

theorem computedResult_of_string {formula_result : List String} {formula_attr_quality : AttrQuality}
    (h : f.evaluateStringSpectrum num exprtk store timeref attr_timestamp_threshold data_size
      = some (formula_result, formula_attr_quality)) :
    f.ComputedResult num exprtk store timeref attr_timestamp_threshold data_size .string formula_result
      ↔ ∀ i < data_size.toNat,
        firstKind (elementName "res" i) (validKinds exprtk (kindsOf num store f.m_symbols.toList))
          ≠ some .number := by
  obtain ⟨hpos, tables, assignment, hfill, hassignment, hresult⟩ := evaluateStringSpectrum_eq_some h
  have hlength : (formula_result.length : Int) = data_size := by
    rw [hresult, List.length_map, List.length_range]
    exact Int.toNat_of_nonneg hpos.le
  constructor
  · intro hcomputed i hi
    obtain ⟨value, hvalue, -⟩ := hcomputed.entries i hi
    rw [← isSome_stringvar?_iff hfill assignment hi, ← assignedText_eq hfill hassignment]
    exact Option.isSome_iff_exists.mpr ⟨value, hvalue⟩
  · intro hnumbers
    refine ⟨hlength, ?_, ?_⟩
    · intro i hi
      obtain ⟨text, htext⟩ := Option.isSome_iff_exists.mp
        ((isSome_stringvar?_iff hfill assignment hi).mpr (hnumbers i hi))
      have hentry : formula_result[i]? = some text := by
        rw [hresult, getElem?_map_range _ hi, SymbolTable.stringvarRef, if_pos (exprtk.valid_res i),
          htext, Option.getD_some]
      exact ⟨text, (assignedText_eq hfill hassignment i).trans htext, hentry⟩
    · intro attr_name now pushed attr attr' hdim hset
      obtain ⟨result, quality, heval, hdata⟩ := exists_result_of_set hset
      have hsame : formula_result = result := congrArg Prod.fst (Option.some.inj (h.symm.trans heval))
      rw [hdata, hdim, ← hsame]
      exact hlength

/-- **Which results are computed.** Of the calls that succeed those for texts, unless the formula has a
number that is called like an element of the result. -/
theorem computedResult_iff {K : ElementType} {formula_result : List K.Carrier}
    {formula_attr_quality : AttrQuality}
    (h : f.evaluateSpectrumFormula num exprtk store timeref attr_timestamp_threshold data_size K
      = some (formula_result, formula_attr_quality)) :
    f.ComputedResult num exprtk store timeref attr_timestamp_threshold data_size K formula_result
      ↔ K = .string ∧ ∀ i < data_size.toNat,
        firstKind (elementName "res" i) (validKinds exprtk (kindsOf num store f.m_symbols.toList))
          ≠ some .number := by
  by_cases hK : K = .string
  · subst hK
    rw [and_iff_right rfl]
    exact computedResult_of_string h
  · refine iff_of_false ?_ fun hstring => hK hstring.1
    rw [f.evaluateSpectrumFormula_of_ne num exprtk store timeref attr_timestamp_threshold data_size hK]
      at h
    obtain ⟨hpos, rfl⟩ := evaluateNumericSpectrum_eq_some h
    intro hresult
    have hsize := hresult.size
    rw [List.length_nil] at hsize
    omega

/-- Expressions that assign this text to all texts, and nothing to a number. -/
def assigningExprtk : Exprtk Int where
  valid_symbol _ := true
  evaluate _ _ := some ⟨fun _ => 0, fun _ => "one", fun _ _ => 0⟩
  valid_res _ := rfl

def constantFormula (m_formula : String) : FormulaData where
  m_formula
  m_symbols := ∅
  m_evaluation_modes := [.change]

theorem evaluate_constantFormula_text :
    (constantFormula "res_0 := 'one'; res_1 := 'one'").evaluateSpectrumFormula sampleNumbers
      assigningExprtk sampleStore ⟨0, 0⟩ 20 2 .string = some (["one", "one"], .valid) := by
  rfl

theorem evaluate_constantFormula_number :
    (constantFormula "1 + 1").evaluateSpectrumFormula sampleNumbers assigningExprtk sampleStore
      ⟨0, 0⟩ 20 2 .short = some ([], .valid) := by
  rfl

theorem computedResult_sample :
    (constantFormula "res_0 := 'one'; res_1 := 'one'").ComputedResult sampleNumbers assigningExprtk
      sampleStore ⟨0, 0⟩ 20 2 .string ["one", "one"] := by
  refine (computedResult_iff evaluate_constantFormula_text).mpr ⟨rfl, ?_⟩
  intro i _
  have hnone : firstKind (elementName "res" i) (validKinds assigningExprtk
      (kindsOf sampleNumbers sampleStore
        (constantFormula "res_0 := 'one'; res_1 := 'one'").m_symbols.toList)) = none := rfl
  rw [hnone]
  exact (Option.some_ne_none SymbolKind.number).symm

theorem not_computedResult_sample :
    (constantFormula "1 + 1").evaluateSpectrumFormula
        sampleNumbers assigningExprtk sampleStore ⟨0, 0⟩ 20 2 .short = some ([], .valid)
      ∧ ¬ (constantFormula "1 + 1").ComputedResult
        sampleNumbers assigningExprtk sampleStore ⟨0, 0⟩ 20 2 .short [] :=
  ⟨evaluate_constantFormula_number, fun h => absurd h.size (by decide)⟩

end FormulaData

end DshLmc
