import DshLmc.Library.ListRelations
import DshLmc.Library.MapWrites
import DshLmc.Proof.InitialValues
import DshLmc.Proof.VariableNodes
import Mathlib.Data.List.Nodup

/-!
# Formulas of a configuration

A formula is to belong to the attribute that is created, and to have the variables that are written in
the configuration. The parser gives it the name of the attribute and not its alias, and keeps only the
first of two variables with one label. An attribute is configured as it is written as long as this does
not matter and its variables are what is written.
-/

namespace DshLmc

open Tango TangoUtils Search

def symbols (vars : List ConfiguredVar) : FormulaSymbols := vars.foldl insertSymbol ∅

def symbolWrite (v : ConfiguredVar) : MapWrite String FormulaVar :=
  .insertIfNew (String.ofList v.label) v.var

theorem symbols_eq (vars : List ConfiguredVar) :
    symbols vars = (vars.map symbolWrite).foldl MapWrite.apply ∅ := by
  rw [List.foldl_map]
  rfl

section Symbols

variable {vars : List ConfiguredVar}

theorem exists_of_mem_symbolWrites {k : String} {x : FormulaVar}
    (h : .insertIfNew k x ∈ vars.map symbolWrite) :
    ∃ v ∈ vars, String.ofList v.label = k ∧ v.var = x := by
  obtain ⟨v, hv, heq⟩ := List.mem_map.mp h
  obtain ⟨rfl, rfl⟩ := MapWrite.insertIfNew.inj heq
  exact ⟨v, hv, rfl, rfl⟩

theorem insert_notMem_symbolWrites {k : String} {x : FormulaVar} :
    .insert k x ∉ vars.map symbolWrite := by
  intro h
  obtain ⟨v, -, heq⟩ := List.mem_map.mp h
  cases heq

theorem exists_of_getElem?_symbols {k : String} {x : FormulaVar} (h : (symbols vars)[k]? = some x) :
    ∃ v ∈ vars, String.ofList v.label = k ∧ v.var = x := by
  rw [symbols_eq] at h
  rcases MapWrite.mem_of_getElem?_foldl_apply h with hinsert | ⟨-, hnew⟩
  · exact absurd hinsert insert_notMem_symbolWrites
  · exact exists_of_mem_symbolWrites hnew

theorem getElem?_symbols (hnodup : (vars.map (·.label)).Nodup) {v : ConfiguredVar} (hv : v ∈ vars) :
    (symbols vars)[String.ofList v.label]? = some v.var := by
  have hmem : symbolWrite v ∈ vars.map symbolWrite := List.mem_map_of_mem hv
  obtain ⟨x, hx, hwrite⟩ := MapWrite.exists_getElem?_of_insertIfNew compare hmem
    fun _ => insert_notMem_symbolWrites
  obtain ⟨w, hw, hlabel, rfl⟩ := exists_of_mem_symbolWrites hwrite
  obtain rfl := List.inj_on_of_nodup_map hnodup hw hv (String.ofList_injective hlabel)
  rw [symbols_eq]
  exact hx

theorem size_foldl_insertSymbol (hnodup : (vars.map (·.label)).Nodup)
    (formula_symbols : FormulaSymbols)
    (hnew : ∀ v ∈ vars, String.ofList v.label ∉ formula_symbols) :
    (vars.foldl insertSymbol formula_symbols).size = formula_symbols.size + vars.length := by
  induction vars generalizing formula_symbols with
  | nil => rfl
  | cons v vars ih =>
      obtain ⟨hnot, hnodup⟩ := List.nodup_cons.mp hnodup
      have hsize : (insertSymbol formula_symbols v).size = formula_symbols.size + 1 := by
        rw [insertSymbol, Std.ExtTreeMap.size_insertIfNew, if_neg (hnew v List.mem_cons_self)]
      have hrest : ∀ w ∈ vars, String.ofList w.label ∉ insertSymbol formula_symbols v := by
        intro w hw hmem
        rw [insertSymbol, Std.ExtTreeMap.mem_insertIfNew] at hmem
        rcases hmem with heq | hmem
        · have hlabel := String.ofList_injective (Std.LawfulEqCmp.eq_of_compare heq)
          exact hnot (List.mem_map.mpr ⟨w, hw, hlabel.symm⟩)
        · exact hnew w (List.mem_cons_of_mem v hw) hmem
      calc (vars.foldl insertSymbol (insertSymbol formula_symbols v)).size
          = (insertSymbol formula_symbols v).size + vars.length := ih hnodup _ hrest
        _ = formula_symbols.size + (vars.length + 1) := by rw [hsize]; omega

theorem size_symbols (hnodup : (vars.map (·.label)).Nodup) : (symbols vars).size = vars.length := by
  rw [symbols, size_foldl_insertSymbol hnodup ∅ (by simp)]
  simp

end Symbols

section Vars

variable {lib : ConfigLibraries} {nodes : List XmlNode} {first : ℕ} {vars : List ConfiguredVar}

theorem parseFormulaVars_eq_some (htokens : ∀ url, lib.count_tokens url ≤ url.count '/' + 1)
    (h : parseFormulaVars lib first nodes = some vars) :
    List.Forall₂ (fun node v => CompleteVar lib node ∧ ParsedVar lib node v) nodes vars ∧
      ∀ v ∈ vars, ∃ i, v.var.address = first + i ∧ (vars.map (·.proxy))[i]? = some v.proxy := by
  induction nodes generalizing first vars with
  | nil =>
      obtain rfl := Option.some.inj h
      exact ⟨.nil, by simp⟩
  | cons node nodes ih =>
      simp only [parseFormulaVars, Option.bind_eq_bind, Option.bind_eq_some_iff] at h
      obtain ⟨v, hv, rest, hrest, h⟩ := h
      obtain rfl := Option.some.inj h
      obtain ⟨hcomplete, hparsed, haddress⟩ := parseFormulaVar_eq_some htokens hv
      obtain ⟨hall, hproxies⟩ := ih hrest
      refine ⟨.cons ⟨hcomplete, hparsed⟩ hall, fun w hw => ?_⟩
      rcases List.mem_cons.mp hw with rfl | hw
      · exact ⟨0, haddress, rfl⟩
      · obtain ⟨i, haddress, hproxy⟩ := hproxies w hw
        exact ⟨i + 1, by omega, hproxy⟩

theorem exists_parseFormulaVars (htokens : ∀ url, lib.count_tokens url ≤ url.count '/' + 1)
    (h : ∀ node ∈ nodes, CompleteVar lib node) (first : ℕ) :
    ∃ vars, parseFormulaVars lib first nodes = some vars := by
  induction nodes generalizing first with
  | nil => exact ⟨[], rfl⟩
  | cons node nodes ih =>
      obtain ⟨hnode, hnodes⟩ := List.forall_mem_cons.mp h
      obtain ⟨v, hv⟩ := exists_parseFormulaVar htokens hnode first
      obtain ⟨rest, hrest⟩ := ih hnodes (first + 1)
      exact ⟨v :: rest, by simp [parseFormulaVars, hv, hrest]⟩

end Vars

def formulaVars (formula : XmlNode) : List XmlNode :=
  (formula.child "FormulaVars").elim [] (·.childrenOf "FormulaVar")

/-- What a `Formula` element has to have for the parser. -/
structure CompleteFormula (lib : ConfigLibraries) (formula : XmlNode) : Prop where
  expression : (formula.child "Expression").isSome
  modes : ∃ tag ∈ formula.child "EvaluationMode", tag.childrenOf "Value" ≠ [] ∧
    ∀ it ∈ tag.childrenOf "Value", (getFormulaEvalMode (stripBlankSpaces it.text)).isSome
  vars : formulaVars formula ≠ []
  complete : ∀ var ∈ formulaVars formula, CompleteVar lib var

/-- What the parser makes of it. -/
structure ParsedFormula (lib : ConfigLibraries) (formula : XmlNode) (vars : List ConfiguredVar)
    (f : ConfiguredFormula) : Prop where
  parsed : List.Forall₂ (fun node v => CompleteVar lib node ∧ ParsedVar lib node v)
    (formulaVars formula) vars
  symbols : f.data.m_symbols = symbols vars
  proxies : ∀ v ∈ vars, f.proxies[v.var.address]? = some v.proxy

section Formula

variable {lib : ConfigLibraries} {formula : XmlNode} {f : ConfiguredFormula}

theorem parseFormulaNode_eq_some (htokens : ∀ url, lib.count_tokens url ≤ url.count '/' + 1)
    (h : parseFormulaNode lib formula = some f) :
    CompleteFormula lib formula ∧ ∃ vars, ParsedFormula lib formula vars f := by
  simp only [parseFormulaNode, Option.bind_eq_bind, Option.bind_eq_some_iff] at h
  obtain ⟨expr, hexpr, modes, hmodes, evt_types, hevt_types, h⟩ := h
  rw [Option.ite_none_left_eq_some, Option.bind_eq_some_iff] at h
  obtain ⟨hsome, vars, hvars, h⟩ := h
  rw [Option.ite_none_left_eq_some] at h
  obtain ⟨hne, h⟩ := h
  obtain rfl := Option.some.inj h
  obtain ⟨hall, hproxies⟩ := parseFormulaVars_eq_some htokens hvars
  have hevents := mapM_eq_some_iff.mp hevt_types
  refine ⟨⟨by rw [hexpr]; rfl, ⟨modes, hmodes, ?_, ?_⟩, ?_, ?_⟩, vars, hall, rfl, ?_⟩
  · intro hnil
    rw [hnil] at hevents
    exact hsome (List.forall₂_nil_left_iff.mp hevents)
  · intro it hit
    obtain ⟨evt_type, -, hevent⟩ := exists_of_forall₂ hevents hit
    rw [hevent]
    rfl
  · intro hnil
    have hvars_all : List.Forall₂ _ (formulaVars formula) vars := hall
    rw [hnil] at hvars_all
    exact hne (List.forall₂_nil_left_iff.mp hvars_all)
  · intro var hvar
    obtain ⟨v, -, hcomplete, -⟩ := exists_of_forall₂ hall hvar
    exact hcomplete
  · intro v hv
    obtain ⟨i, haddress, hproxy⟩ := hproxies v hv
    rw [haddress, Nat.zero_add]
    exact hproxy

theorem exists_parseFormulaNode (htokens : ∀ url, lib.count_tokens url ≤ url.count '/' + 1)
    (h : CompleteFormula lib formula) : ∃ f, parseFormulaNode lib formula = some f := by
  obtain ⟨expr, hexpr⟩ := Option.isSome_iff_exists.mp h.expression
  obtain ⟨modes, hmodes, hne, hknown⟩ := h.modes
  obtain ⟨evt_types, hevents⟩ :=
    exists_forall₂ fun it hit => Option.isSome_iff_exists.mp (hknown it hit)
  obtain ⟨vars, hvars⟩ := exists_parseFormulaVars htokens h.complete 0
  have hevt_types : evt_types ≠ [] := by
    rintro rfl
    exact hne (List.forall₂_nil_right_iff.mp hevents)
  have hvars_ne : vars ≠ [] := by
    rintro rfl
    exact h.vars (List.forall₂_nil_right_iff.mp (parseFormulaVars_eq_some htokens hvars).1)
  rw [formulaVars] at hvars
  rw [Option.mem_def] at hmodes
  simp only [parseFormulaNode, hexpr, hmodes, Option.bind_eq_bind, Option.bind_some,
    mapM_eq_some_iff.mpr hevents, if_neg hevt_types, hvars, if_neg hvars_ne]
  exact ⟨_, rfl⟩

end Formula

/-- What the first part of the parser asks for. -/
structure CompleteTangoAttr (lib : ConfigLibraries) (node : XmlNode) : Prop where
  name : (node.attributeValue "name").isSome
  type : ∃ s ∈ node.stripped "DataType", 0 ≤ getAttrDataType s
  format : ∃ s ∈ node.stripped "DataFormat", 0 ≤ getAttrDataFormat s ∧
    (getAttrDataFormat s = Tango.spectrum → (node.child "DimX").isSome) ∧
    (getAttrDataFormat s = image → (node.child "DimX").isSome ∧ (node.child "DimY").isSome) ∧
    (hasMemorized node → s = "SCALAR".toList)
  rwType : ∃ s ∈ node.stripped "RWType", hasMemorized node → s ≠ "READ".toList
  level : ∀ s ∈ node.stripped "DisplayLevel", s = "OPERATOR".toList ∨ s = "EXPERT".toList

/-- What an `Attribute` element with a formula has to have for the parser. -/
structure CompleteAttr (lib : ConfigLibraries) (node formula : XmlNode) : Prop extends
    CompleteTangoAttr lib node where
  value : ∀ s ∈ node.stripped "DataType",
    0 ≤ (parseTypedValue lib { data_type := getAttrDataType s, enum_labels := enumLabels node }
      (node.child "Value")).1
  formula : CompleteFormula lib formula

section Attr

variable {lib : ConfigLibraries} {node formula : XmlNode} {da : DeviceAttrImpl}

theorem displayLevel_isSome : (displayLevel node).isSome ↔
    ∀ s ∈ node.stripped "DisplayLevel", s = "OPERATOR".toList ∨ s = "EXPERT".toList := by
  unfold displayLevel
  cases node.stripped "DisplayLevel" with
  | none => simp
  | some s => simp [← String.toList_inj]

theorem maxDims_isSome {data_format : Int} : (maxDims lib data_format node).isSome ↔
    (data_format = Tango.spectrum → (node.child "DimX").isSome) ∧
      (data_format = image → (node.child "DimX").isSome ∧ (node.child "DimY").isSome) := by
  have hne : Tango.spectrum ≠ image := by decide
  unfold maxDims
  by_cases hspectrum : data_format = Tango.spectrum
  · simp [hspectrum, hne]
  · by_cases himage : data_format = image
    · cases hx : node.child "DimX" <;> cases hy : node.child "DimY" <;> simp [himage, hne.symm]
    · simp [hspectrum, himage]

theorem attrProp_enum_labels {data_type : Int} {prop : MultiAttrProp}
    (h : attrProp lib data_type node = some prop) : prop.enum_labels = enumLabels node := by
  unfold attrProp at h
  split_ifs at h <;> obtain rfl := Option.some.inj h <;> rfl

theorem mem_attrDataTypes {s : List Char} (h : 0 ≤ getAttrDataType s) :
    getAttrDataType s ∈ attrDataTypes.map Prod.snd := by
  rw [getAttrDataType] at h ⊢
  cases hlookup : attrDataTypes.lookup (String.ofList s) with
  | none =>
      rw [hlookup] at h
      exact absurd h (by decide)
  | some n =>
      obtain ⟨before, after, hsplit, -⟩ := List.lookup_eq_some_iff.mp hlookup
      rw [hsplit]
      simp

theorem exists_attrProp {data_type : Int} (h : data_type ∈ attrDataTypes.map Prod.snd) :
    ∃ prop, attrProp lib data_type node = some prop := by
  simp only [attrDataTypes, List.map_cons, List.map_nil, List.mem_cons, List.not_mem_nil,
    or_false] at h
  rcases h with rfl | rfl | rfl | rfl | rfl | rfl | rfl | rfl <;> exact ⟨_, rfl⟩

theorem makeTangoAttr_eq_some {attr : TangoAttr} (h : makeTangoAttr lib node = some attr) :
    CompleteTangoAttr lib node ∧
      (∃ name ∈ node.attributeValue "name", attr.name = (node.attributeValue "alias").getD name) ∧
      ∃ s ∈ node.stripped "DataType", attr.data_type = getAttrDataType s := by
  simp only [makeTangoAttr, Option.bind_eq_bind, Option.bind_eq_some_iff] at h
  obtain ⟨name, hname, type, htype, h⟩ := h
  rw [Option.ite_none_left_eq_some, Option.bind_eq_some_iff] at h
  obtain ⟨hknown, format, hformat, h⟩ := h
  obtain ⟨rw_type, hrw, h⟩ := Option.bind_eq_some_iff.mp h
  obtain ⟨disp, hdisp, h⟩ := Option.bind_eq_some_iff.mp h
  rw [Option.ite_none_left_eq_some, Option.bind_eq_some_iff] at h
  obtain ⟨hmemorized, dims, hdims, h⟩ := h
  rw [Option.ite_none_left_eq_some] at h
  obtain ⟨hformat', h⟩ := h
  obtain rfl := Option.some.inj h
  obtain ⟨hx, hxy⟩ := maxDims_isSome.mp (by rw [hdims]; rfl)
  have hlevel := displayLevel_isSome.mp (by rw [hdisp]; rfl)
  refine ⟨⟨by rw [hname]; rfl, ⟨type, htype, by omega⟩, ⟨format, hformat, by omega, hx, hxy, ?_⟩,
    ⟨rw_type, hrw, ?_⟩, hlevel⟩, ⟨name, hname, rfl⟩, type, htype, rfl⟩
  · exact fun hm => by_contra fun hne => hmemorized ⟨.inr hne, hm⟩
  · exact fun hm heq => hmemorized ⟨.inl heq, hm⟩

theorem exists_makeTangoAttr (h : CompleteTangoAttr lib node) :
    ∃ attr, makeTangoAttr lib node = some attr := by
  obtain ⟨name, hname⟩ := Option.isSome_iff_exists.mp h.name
  obtain ⟨type, htype, hknown⟩ := h.type
  obtain ⟨format, hformat, hformat', hx, hxy, hscalar⟩ := h.format
  obtain ⟨rw_type, hrw, hwritable⟩ := h.rwType
  obtain ⟨disp, hdisp⟩ := Option.isSome_iff_exists.mp (displayLevel_isSome.mpr h.level)
  have hdims_some : (maxDims lib (getAttrDataFormat format) node).isSome :=
    maxDims_isSome.mpr ⟨hx, hxy⟩
  obtain ⟨dims, hdims⟩ := Option.isSome_iff_exists.mp hdims_some
  have hmemorized : ¬((rw_type = "READ".toList ∨ format ≠ "SCALAR".toList) ∧ hasMemorized node) := by
    rintro ⟨hread | hne, hm⟩
    · exact hwritable hm hread
    · exact hne (hscalar hm)
  rw [Option.mem_def] at htype hformat hrw
  simp only [makeTangoAttr, hname, htype, hformat, hrw, hdisp, hdims, Option.bind_eq_bind,
    Option.bind_some, if_neg hmemorized, if_neg (not_lt.mpr hknown), if_neg (not_lt.mpr hformat')]
  exact ⟨_, rfl⟩

theorem parseAttrNode_eq_some (htokens : ∀ url, lib.count_tokens url ≤ url.count '/' + 1)
    (hformula : node.child "Formula" = some formula) (h : parseAttrNode lib node = some da) :
    CompleteAttr lib node formula ∧
      ∃ name ∈ node.attributeValue "name", da.attr.name = (node.attributeValue "alias").getD name ∧
      ∃ f vars, ParsedFormula lib formula vars f ∧ da.formulaData = some f ∧
        f.data.m_attrName = String.ofList name := by
  simp only [parseAttrNode, Option.bind_eq_bind, Option.bind_eq_some_iff] at h
  obtain ⟨name, hname, attr, hattr, prop, hprop, h⟩ := h
  rw [Option.ite_none_left_eq_some, Option.bind_eq_some_iff] at h
  obtain ⟨hvalue, formulaData, hdata, h⟩ := h
  obtain rfl := Option.some.inj h
  rw [parseAttrFormula, hformula] at hdata
  obtain ⟨f, hf, rfl⟩ := Option.map_eq_some_iff.mp hdata
  obtain ⟨hcomplete, ⟨name', hname', halias⟩, type, htype, htype'⟩ := makeTangoAttr_eq_some hattr
  obtain rfl := Option.some.inj (hname.symm.trans hname')
  obtain ⟨hformula', vars, hvars⟩ := parseFormulaNode_eq_some htokens hf
  refine ⟨⟨hcomplete, fun s hs => ?_, hformula'⟩, name, hname, halias, _, vars, ?_, rfl, rfl⟩
  · obtain rfl := Option.some.inj (htype.symm.trans hs)
    rw [htype', attrProp_enum_labels hprop] at hvalue
    exact not_lt.mp hvalue
  · exact ⟨hvars.parsed, hvars.symbols, hvars.proxies⟩

theorem exists_parseAttrNode (htokens : ∀ url, lib.count_tokens url ≤ url.count '/' + 1)
    (hformula : node.child "Formula" = some formula) (h : CompleteAttr lib node formula) :
    ∃ da, parseAttrNode lib node = some da := by
  obtain ⟨attr, hattr⟩ := exists_makeTangoAttr h.toCompleteTangoAttr
  obtain ⟨-, ⟨name, hname, -⟩, type, htype, htype'⟩ := makeTangoAttr_eq_some hattr
  obtain ⟨type', hmem, hknown⟩ := h.type
  obtain rfl := Option.some.inj (htype.symm.trans hmem)
  have hattr_type : attr.data_type ∈ attrDataTypes.map Prod.snd := by
    rw [htype']
    exact mem_attrDataTypes hknown
  obtain ⟨prop, hprop⟩ : ∃ prop, attrProp lib attr.data_type node = some prop :=
    exists_attrProp hattr_type
  obtain ⟨f, hf⟩ := exists_parseFormulaNode htokens h.formula
  have hvalue := h.value type htype
  rw [← htype', ← attrProp_enum_labels hprop, ← not_lt] at hvalue
  rw [Option.mem_def] at hname
  simp only [parseAttrNode, hname, hattr, hprop, Option.bind_eq_bind, Option.bind_some,
    if_neg hvalue, parseAttrFormula, hformula, hf, Option.map_some]
  exact ⟨_, rfl⟩

end Attr

/-! ### Faithful formulas -/

/-- The formula is of the attribute that is created, and has one variable for each element. -/
structure Configured (lib : ConfigLibraries) (formula : XmlNode) (da : DeviceAttrImpl)
    (f : ConfiguredFormula) : Prop where
  bound : f.data.m_attrName = String.ofList da.attr.name
  size : f.data.m_symbols.size = (formulaVars formula).length
  entry : ∀ var ∈ formulaVars formula, ∃ label ∈ var.trimmed "Label", ∃ v,
    f.data.m_symbols[String.ofList label]? = some v ∧
    (∃ s ∈ var.trimmed "Value", NamedBy v s) ∧
    (v.device_name.isSome →
      ∃ proxy, f.proxies[v.address]? = some (some proxy) ∧ Expects lib var var.trimmed proxy)

/-- Something that the element or its formula has to have is missing or unknown. -/
inductive MalformedAttr (lib : ConfigLibraries) (node formula : XmlNode) : Prop
  | missing {name : String} (hname : name ∈ ["DataType", "DataFormat", "RWType", "Value"])
      (h : node.child name = none)
  | init (h : (node.child "Value").bind (·.child "InitValue") = none)
  | dimX {s : List Char} (hs : s ∈ node.trimmed "DataFormat")
      (hformat : getAttrDataFormat s = Tango.spectrum ∨ getAttrDataFormat s = image)
      (h : node.child "DimX" = none)
  | dimY {s : List Char} (hs : s ∈ node.trimmed "DataFormat") (hformat : getAttrDataFormat s = image)
      (h : node.child "DimY" = none)
  | formula {name : String} (hname : name ∈ ["Expression", "EvaluationMode", "FormulaVars"])
      (h : formula.child name = none)
  | type {s : List Char} (hs : s ∈ node.trimmed "DataType") (h : getAttrDataType s < 0)
  | var {var : XmlNode} (hvar : var ∈ formulaVars formula) (h : MalformedVar lib var)
  | duplicate (h : ¬((formulaVars formula).map (·.trimmed "Label")).Nodup)

/-- An attribute that is made has the formula that is written, and none is made of an element that
cannot be made into one. -/
structure FaithfulFormula (lib : ConfigLibraries) (node formula : XmlNode) : Prop where
  configured : ∀ da, parseAttrNode lib node = some da →
    ∃ f, da.formulaData = some f ∧ Configured lib formula da f
  refused : MalformedAttr lib node formula → parseAttrNode lib node = none

/-- There is no other alias, the labels differ, and the texts are read as they are written. -/
structure SoundFormula (lib : ConfigLibraries) (node formula : XmlNode) : Prop where
  name : ∀ alias_name ∈ node.attributeValue "alias", alias_name ∈ node.attributeValue "name"
  type : node.Tidy "DataType"
  labels : ((formulaVars formula).map (·.trimmed "Label")).Nodup
  tidy : ∀ var ∈ formulaVars formula, var.Tidy "Label"
  vars : ∀ var ∈ formulaVars formula, SoundVar lib var

section Faithful

variable {lib : ConfigLibraries} {node formula : XmlNode}

theorem parseTypedValue_of_missing {dev_attr : DeviceAttr} {value : Option XmlNode}
    (h : value.bind (·.child "InitValue") = none) :
    (parseTypedValue lib dev_attr value).1 = -1 := by
  have hnone : (value.bind (·.child "InitValue")).isNone := by rw [h]; rfl
  have henum : (parseValueNodeEnum lib.formats dev_attr value).1 = -1 := by
    rw [parseValueNodeEnum, if_pos hnone]
  unfold parseTypedValue parseValueNodeString parseValueNodeState parseValueNode
  simp only [parseValue_of_missing hnone]
  split_ifs <;> first | rfl | exact henum

theorem exists_initValue (hcomplete : CompleteAttr lib node formula) :
    (node.child "Value").bind (·.child "InitValue") ≠ none := by
  intro h
  obtain ⟨s, hs, -⟩ := hcomplete.type
  have hvalue := hcomplete.value s hs
  rw [parseTypedValue_of_missing h] at hvalue
  exact absurd hvalue (by decide)

theorem stripped_of_format {s : List Char} (hs : s ∈ node.trimmed "DataFormat")
    (h : 0 ≤ getAttrDataFormat s) : s ∈ node.stripped "DataFormat" := by
  rwa [(tidy_of_mem hs (noBlanks_of_getAttrDataFormat h)).stripped_eq]

theorem not_malformedAttr (hcomplete : CompleteAttr lib node formula)
    (hsound : SoundFormula lib node formula) : ¬MalformedAttr lib node formula := by
  intro hmalformed
  obtain ⟨type, htype, hknown⟩ := hcomplete.type
  obtain ⟨format, hformat, -, hx, hxy, -⟩ := hcomplete.format
  cases hmalformed with
  | @missing name hname h =>
      have hstripped : ∀ {s : List Char}, s ∉ node.stripped name := by
        intro s hs
        have hsome := XmlNode.isSome_stripped.mp (Option.isSome_of_mem hs)
        simp [h] at hsome
      obtain ⟨rw_type, hrw, -⟩ := hcomplete.rwType
      simp only [List.mem_cons, List.not_mem_nil, or_false] at hname
      rcases hname with rfl | rfl | rfl | rfl
      · exact hstripped htype
      · exact hstripped hformat
      · exact hstripped hrw
      · exact exists_initValue hcomplete (by rw [h]; rfl)
  | init h => exact exists_initValue hcomplete h
  | @dimX s hs hs' h =>
      have hknown : 0 ≤ getAttrDataFormat s := by rcases hs' with hs' | hs' <;> rw [hs'] <;> decide
      obtain rfl := Option.some.inj (hformat.symm.trans (stripped_of_format hs hknown))
      rcases hs' with hs' | hs'
      · simpa [h] using hx hs'
      · simpa [h] using (hxy hs').1
  | @dimY s hs hs' h =>
      have hknown : 0 ≤ getAttrDataFormat s := by rw [hs']; decide
      obtain rfl := Option.some.inj (hformat.symm.trans (stripped_of_format hs hknown))
      simpa [h] using (hxy hs').2
  | @formula name hname h =>
      obtain ⟨modes, hmodes, -⟩ := hcomplete.formula.modes
      simp only [List.mem_cons, List.not_mem_nil, or_false] at hname
      rcases hname with rfl | rfl | rfl
      · simpa [h] using hcomplete.formula.expression
      · exact absurd (h.symm.trans hmodes) (by simp)
      · exact hcomplete.formula.vars (by rw [formulaVars, h]; rfl)
  | @type s hs h =>
      rw [hsound.type.stripped_eq] at htype
      obtain rfl := Option.some.inj (hs.symm.trans htype)
      omega
  | var hvar h =>
      exact not_malformedVar (hcomplete.formula.complete _ hvar) (hsound.vars _ hvar) h
  | duplicate h => exact h hsound.labels

theorem ParsedVar.isSome_proxy {v : ConfiguredVar} {var : XmlNode} (h : ParsedVar lib var v) :
    v.proxy.isSome = v.var.device_name.isSome := by
  obtain ⟨s, -, device_name, attr_name, value_type, -, hvar, hsome⟩ := h.value
  rw [hsome, hvar, Option.isSome_map]

/-- Where the labels are tidy, the variables have the labels of the elements. -/
theorem labels_eq {nodes : List XmlNode} {vars : List ConfiguredVar}
    (h : List.Forall₂ (fun node v => CompleteVar lib node ∧ ParsedVar lib node v) nodes vars)
    (htidy : ∀ var ∈ nodes, var.Tidy "Label") :
    nodes.map (·.trimmed "Label") = (vars.map (·.label)).map some := by
  induction h with
  | nil => rfl
  | cons hparsed _ ih =>
      obtain ⟨hnode, hnodes⟩ := List.forall_mem_cons.mp htidy
      have hlabel := hparsed.2.label
      rw [hnode.stripped_eq] at hlabel
      rw [List.map_cons, List.map_cons, List.map_cons, ih hnodes, hlabel]

theorem nodup_labels {vars : List ConfiguredVar} {f : ConfiguredFormula}
    (hparsed : ParsedFormula lib formula vars f)
    (hlabels : ((formulaVars formula).map (·.trimmed "Label")).Nodup)
    (htidy : ∀ var ∈ formulaVars formula, var.Tidy "Label") : (vars.map (·.label)).Nodup := by
  rw [labels_eq hparsed.parsed htidy] at hlabels
  exact hlabels.of_map some

theorem configured_of_sound (htokens : ∀ url, lib.count_tokens url ≤ url.count '/' + 1)
    (hsound : SoundFormula lib node formula) {da : DeviceAttrImpl} {name : List Char}
    {f : ConfiguredFormula} {vars : List ConfiguredVar} (hname : name ∈ node.attributeValue "name")
    (halias : da.attr.name = (node.attributeValue "alias").getD name)
    (hparsed : ParsedFormula lib formula vars f) (hbound : f.data.m_attrName = String.ofList name) :
    Configured lib formula da f := by
  have hnodup := nodup_labels hparsed hsound.labels hsound.tidy
  refine ⟨?_, ?_, fun var hvar => ?_⟩
  · have hsame : (node.attributeValue "alias").getD name = name := by
      cases hattr : node.attributeValue "alias" with
      | none => rfl
      | some alias_name => exact Option.some.inj ((hsound.name alias_name hattr).symm.trans hname)
    rw [hbound, halias, hsame]
  · rw [hparsed.symbols, size_symbols hnodup, hparsed.parsed.length_eq]
  · obtain ⟨v, hv, hcomplete, hv'⟩ := exists_of_forall₂ hparsed.parsed hvar
    have hfaithful := faithfulVar_of_sound htokens hv' (hsound.vars var hvar)
    have hlabel := hv'.label
    rw [(hsound.tidy var hvar).stripped_eq] at hlabel
    refine ⟨v.label, hlabel, v.var, ?_, hfaithful.named, fun hdevice => ?_⟩
    · rw [hparsed.symbols]
      exact getElem?_symbols hnodup hv
    · rw [← hv'.isSome_proxy] at hdevice
      obtain ⟨proxy, hproxy⟩ := Option.isSome_iff_exists.mp hdevice
      exact ⟨proxy, by rw [hparsed.proxies v hv, hproxy], hfaithful.expects proxy hproxy⟩

/-- A label under which there is a symbol has no blanks, as all labels that are parsed. -/
theorem tidy_of_entry {vars : List ConfiguredVar} {f : ConfiguredFormula} {var : XmlNode}
    {label : List Char} {v : FormulaVar} (hparsed : ParsedFormula lib formula vars f)
    (hlabel : label ∈ var.trimmed "Label") (hv : f.data.m_symbols[String.ofList label]? = some v) :
    var.Tidy "Label" := by
  rw [hparsed.symbols] at hv
  obtain ⟨w, hw, heq, -⟩ := exists_of_getElem?_symbols hv
  obtain rfl := String.ofList_injective heq
  obtain ⟨node', -, hnode⟩ := exists_of_forall₂ hparsed.parsed.flip hw
  exact tidy_of_mem hlabel (XmlNode.noBlanks_stripped hnode.2.label)

/-- The entry of a label is the variable that was parsed from its element. -/
theorem faithfulVar_of_entry {vars : List ConfiguredVar} {f : ConfiguredFormula} {var : XmlNode}
    {v : ConfiguredVar} {label : List Char} {x : FormulaVar}
    (hparsed : ParsedFormula lib formula vars f)
    (hnodup : (vars.map (·.label)).Nodup) (hv : v ∈ vars) (hv' : ParsedVar lib var v)
    (htidy : var.Tidy "Label") (hlabel : label ∈ var.trimmed "Label")
    (hx : f.data.m_symbols[String.ofList label]? = some x)
    (hnamed : ∃ s ∈ var.trimmed "Value", NamedBy x s)
    (hexpects : x.device_name.isSome →
      ∃ proxy, f.proxies[x.address]? = some (some proxy) ∧ Expects lib var var.trimmed proxy) :
    FaithfulVar lib var v := by
  have hlabel' := hv'.label
  rw [htidy.stripped_eq] at hlabel'
  obtain rfl := Option.some.inj (hlabel'.symm.trans hlabel)
  rw [hparsed.symbols, getElem?_symbols hnodup hv] at hx
  obtain rfl := Option.some.inj hx
  refine ⟨hnamed, fun proxy hproxy => ?_⟩
  obtain ⟨proxy', hproxy', hexpect⟩ := hexpects (by rw [← hv'.isSome_proxy, hproxy]; rfl)
  rw [hparsed.proxies v hv, hproxy] at hproxy'
  obtain rfl := Option.some.inj (Option.some.inj hproxy')
  exact hexpect

theorem soundFormula_of_configured (htokens : ∀ url, lib.count_tokens url ≤ url.count '/' + 1)
    (hwell : ¬MalformedAttr lib node formula)
    {da : DeviceAttrImpl} {name : List Char} {f : ConfiguredFormula} {vars : List ConfiguredVar}
    (hname : name ∈ node.attributeValue "name")
    (halias : da.attr.name = (node.attributeValue "alias").getD name)
    (hparsed : ParsedFormula lib formula vars f) (hbound : f.data.m_attrName = String.ofList name)
    (hconfigured : Configured lib formula da f) : SoundFormula lib node formula := by
  have hlabels : ((formulaVars formula).map (·.trimmed "Label")).Nodup :=
    by_contra fun h => hwell (.duplicate h)
  have htidy : ∀ var ∈ formulaVars formula, var.Tidy "Label" := by
    intro var hvar
    obtain ⟨label, hlabel, v, hv, -⟩ := hconfigured.entry var hvar
    exact tidy_of_entry hparsed hlabel hv
  refine ⟨fun alias_name hattr => ?_, fun s hs => ?_, hlabels, htidy, fun var hvar => ?_⟩
  · have hsame : name = da.attr.name := String.ofList_injective (hbound.symm.trans hconfigured.bound)
    have hgiven : da.attr.name = alias_name := by rw [halias, hattr, Option.getD_some]
    rwa [← hgiven, ← hsame]
  · exact noBlanks_of_getAttrDataType (Int.not_lt.mp fun h => hwell (.type hs h))
  · obtain ⟨v, hv, hcomplete', hv'⟩ := exists_of_forall₂ hparsed.parsed hvar
    obtain ⟨label, hlabel, x, hx, hnamed, hexpects⟩ := hconfigured.entry var hvar
    refine soundVar_of_faithful htokens hcomplete' hv' ?_ fun h => hwell (.var hvar h)
    exact faithfulVar_of_entry hparsed (nodup_labels hparsed hlabels htidy) hv hv' (htidy var hvar)
      hlabel hx hnamed hexpects

/-- **A configured formula is faithful just when the element is not complete, or sound.** -/
theorem faithfulFormula_iff (htokens : ∀ url, lib.count_tokens url ≤ url.count '/' + 1)
    (hformula : node.child "Formula" = some formula) :
    FaithfulFormula lib node formula ↔
      (CompleteAttr lib node formula → SoundFormula lib node formula) := by
  constructor
  · intro hfaithful hcomplete
    obtain ⟨da, hda⟩ := exists_parseAttrNode htokens hformula hcomplete
    obtain ⟨-, name, hname, halias, f, vars, hparsed, hf, hbound⟩ :=
      parseAttrNode_eq_some htokens hformula hda
    obtain ⟨f', hf', hconfigured⟩ := hfaithful.configured da hda
    obtain rfl := Option.some.inj (hf.symm.trans hf')
    have hwell : ¬MalformedAttr lib node formula := by
      intro hmalformed
      exact absurd (hda.symm.trans (hfaithful.refused hmalformed)) (by simp)
    exact soundFormula_of_configured htokens hwell hname halias hparsed hbound hconfigured
  · intro hsound
    refine ⟨fun da hda => ?_, fun hmalformed => ?_⟩
    · obtain ⟨hcomplete, name, hname, halias, f, vars, hparsed, hf, hbound⟩ :=
        parseAttrNode_eq_some htokens hformula hda
      exact ⟨f, hf, configured_of_sound htokens (hsound hcomplete) hname halias hparsed hbound⟩
    · by_contra hne
      obtain ⟨da, hda⟩ := Option.ne_none_iff_exists'.mp hne
      obtain ⟨hcomplete, -⟩ := parseAttrNode_eq_some htokens hformula hda
      exact not_malformedAttr hcomplete (hsound hcomplete) hmalformed

end Faithful

/-- What the two elements need of the libraries. -/
def sampleLibraries : ConfigLibraries where
  formats := ⟨⟨0, fun _ => none, fun _ => 0⟩, ⟨0, fun _ => none, fun _ => 0⟩⟩
  as_int text := Int32.ofInt (extractInteger (-2147483648) 2147483647 text)
  as_llong text := Int64.ofInt (extractInteger (-9223372036854775808) 9223372036854775807 text)
  as_double _ := 0
  as_bool text := text.head?.any ("1tTyY".toList.contains ·)
  count_tokens text := ((text.splitOnP (· == '/')).filter (· ≠ [])).length

theorem sampleLibraries_tokens (url : List Char) :
    sampleLibraries.count_tokens url ≤ url.count '/' + 1 :=
  (List.length_filter_le _ _).trans (length_splitOnP _ url).le

def sampleVar (label value : List Char) : XmlNode :=
  .element "FormulaVar" [] none
    [.leaf "Label" label, .leaf "Value" value, .leaf "InitDataValue" "0".toList,
      .leaf "ExpDataType" "LONG".toList, .leaf "ExpDataFormat" "SCALAR".toList]

def fqdnValue : List Char := "tango://h:1/d/f/m/level.quality".toList

/-- A formula of two variables, an attribute of this device and the quality of one of another. -/
def sampleFormula : XmlNode :=
  .element "Formula" [] none
    [.leaf "Expression" "x + y".toList,
      .element "EvaluationMode" [] none [.leaf "Value" "CHANGE".toList],
      .element "FormulaVars" [] none
        [sampleVar "x".toList "level".toList, sampleVar "y".toList fqdnValue]]

def sampleNode (names : List (String × List Char)) : XmlNode :=
  .element "Attribute" names none
    [.leaf "DataType" "LONG".toList, .leaf "DataFormat" "SCALAR".toList, .leaf "RWType" "READ".toList,
      .element "Value" [] none [.leaf "InitValue" "0".toList], sampleFormula]

theorem hasDomain_fqdnValue : HasDomain fqdnValue :=
  ⟨by decide, "tango://".toList, "h:1".toList, "d/f/m/level.quality".toList, rfl, rfl, by decide,
    by decide⟩

theorem completeVar_sampleVar (label value : List Char)
    (hvalue : isFQDNProxyAttr sampleLibraries (stripBlanks value) → HasDomain (stripBlanks value)) :
    CompleteVar sampleLibraries (sampleVar label value) where
  label := rfl
  value := ⟨stripBlanks value, rfl, hvalue⟩
  init := rfl
  type := ⟨"LONG".toList, rfl, by decide⟩
  format := ⟨"SCALAR".toList, rfl, by decide, fun h => absurd h (by decide)⟩
  size := fun tag htag => by cases htag

theorem soundVar_sampleVar {label value : List Char} (hvalue : NoBlanks (trimBlanks value))
    (hproxy : isFQDNProxyAttr sampleLibraries (trimBlanks value) → NamesAttr (trimBlanks value))
    (hinternal : ¬isFQDNProxyAttr sampleLibraries (trimBlanks value) → IsInternal (trimBlanks value)) :
    SoundVar sampleLibraries (sampleVar label value) where
  value := tidy_of_mem (s := trimBlanks value) rfl hvalue
  type := tidy_of_mem (s := "LONG".toList) rfl (by decide)
  proxy := by
    rintro s hs hfqdn
    obtain rfl := Option.some.inj hs
    exact ⟨hproxy hfqdn, tidy_of_mem (s := "0".toList) rfl (by decide),
      tidy_of_mem (s := "SCALAR".toList) rfl (by decide)⟩
  internal := by
    rintro s hs hfqdn
    obtain rfl := Option.some.inj hs
    exact hinternal hfqdn

theorem completeAttr_sample {names : List (String × List Char)} (h : (names.lookup "name").isSome) :
    CompleteAttr sampleLibraries (sampleNode names) sampleFormula where
  name := h
  type := ⟨"LONG".toList, rfl, by decide⟩
  format := ⟨"SCALAR".toList, rfl, by decide, fun h => absurd h (by decide),
    fun h => absurd h (by decide), fun _ => rfl⟩
  rwType := ⟨"READ".toList, rfl, fun hmemorized => by cases hmemorized⟩
  level := fun s hs => by cases hs
  value := by
    rintro s hs
    obtain rfl := Option.some.inj hs
    exact Int.le_refl 0
  formula := by
    refine ⟨rfl, ⟨_, rfl, by decide, by decide⟩, by decide, ?_⟩
    refine List.forall_mem_cons.mpr ⟨?_, List.forall_mem_cons.mpr ⟨?_, by simp⟩⟩
    · exact completeVar_sampleVar _ _ fun h => absurd h (by decide)
    · exact completeVar_sampleVar _ _ fun _ => hasDomain_fqdnValue

theorem namesAttr_fqdnValue : NamesAttr fqdnValue := by
  intro u w hvalue hw
  have hcut : fqdnValue = "tango://h:1/d/f/m".toList ++ '/' :: "level.quality".toList := rfl
  obtain ⟨rfl, rfl⟩ := append_cons_last_inj (by decide) hw (hcut.symm.trans hvalue)
  exact ⟨by decide, by decide, fun _ => ⟨"level".toList, rfl⟩⟩

theorem soundFormula_sample :
    SoundFormula sampleLibraries (sampleNode [("name", "sum".toList)]) sampleFormula where
  name := fun _ h => by cases h
  type := tidy_of_mem (s := "LONG".toList) rfl (by decide)
  labels := by decide
  tidy := by
    refine List.forall_mem_cons.mpr ⟨?_, List.forall_mem_cons.mpr ⟨?_, by simp⟩⟩
    · exact tidy_of_mem (s := "x".toList) rfl (by decide)
    · exact tidy_of_mem (s := "y".toList) rfl (by decide)
  vars := by
    refine List.forall_mem_cons.mpr ⟨?_, List.forall_mem_cons.mpr ⟨?_, by simp⟩⟩
    · refine soundVar_sampleVar (by decide) (fun h => absurd h (by decide)) fun _ => ?_
      exact ⟨"level".toList, ⟨by decide, by decide, by decide⟩, .inl rfl⟩
    · exact soundVar_sampleVar (by decide) (fun _ => namesAttr_fqdnValue) fun h => absurd h (by decide)

/-- With a name and no alias the formula is the one that is written. -/
theorem faithfulFormula_sample :
    FaithfulFormula sampleLibraries (sampleNode [("name", "sum".toList)]) sampleFormula :=
  (faithfulFormula_iff sampleLibraries_tokens rfl).mpr fun _ => soundFormula_sample

/-- With an alias the formula belongs to an attribute that does not exist. -/
theorem not_faithfulFormula_alias :
    ¬FaithfulFormula sampleLibraries
      (sampleNode [("name", "sum".toList), ("alias", "total".toList)]) sampleFormula := by
  intro h
  have hcomplete : CompleteAttr sampleLibraries
      (sampleNode [("name", "sum".toList), ("alias", "total".toList)]) sampleFormula :=
    completeAttr_sample rfl
  obtain ⟨da, hda⟩ := exists_parseAttrNode sampleLibraries_tokens rfl hcomplete
  obtain ⟨-, name, hname, halias, f, vars, -, hf, hbound⟩ :=
    parseAttrNode_eq_some sampleLibraries_tokens rfl hda
  obtain ⟨f', hf', hconfigured⟩ := h.configured da hda
  obtain rfl := Option.some.inj (hf.symm.trans hf')
  obtain rfl : "sum".toList = name := Option.some.inj hname
  have hsame : "sum".toList = da.attr.name :=
    String.ofList_injective (hbound.symm.trans hconfigured.bound)
  exact absurd (hsame.trans halias) (by decide)

end DshLmc
