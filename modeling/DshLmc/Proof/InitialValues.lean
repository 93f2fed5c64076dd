import DshLmc.Library.ListRelations
import DshLmc.Utils.ValueNode

/-!
# Initial and safe values

The texts of `InitValue` and `SafeValue` are to denote the values that an attribute begins with and
falls back to. The parser of the node takes the blanks out of a text, reads a number from its front and
does not look at what is left of it, so it accepts texts that denote nothing, and stores some value for
them. Here the nodes for which it does what it should are told apart.
-/

namespace DshLmc

open Tango

section Accepting

variable {T : ElementType} (convertInit convertSafe : List Char → Option T.Carrier)
  (model : T.Carrier → XmlNode → Option (AttrGenerationModel T))

/-- The node has all that its values are made from. -/
structure Accepts (node : XmlNode) (initValue : T.Carrier) (safeValue : Option T.Carrier) :
    Prop where
  init : (node.stripped "InitValue").bind convertInit = some initValue
  safe : Option.Rel (convertSafe · = some ·) (node.stripped "SafeValue") safeValue
  model : ∀ randomize ∈ node.child "Randomize", (model initValue randomize).isSome

variable {convertInit convertSafe model}

theorem setModel_status {initValue : T.Carrier} {dev_attr : DeviceAttr} {node : XmlNode} :
    ((setModel model initValue dev_attr node).1 = 0 ∧
      ∀ randomize ∈ node.child "Randomize", (model initValue randomize).isSome) ∨
    ((setModel model initValue dev_attr node).1 = -1 ∧
      ∃ randomize ∈ node.child "Randomize", model initValue randomize = none) := by
  cases hrandomize : node.child "Randomize" with
  | none => simp [setModel, hrandomize]
  | some randomize =>
      cases hmodel : model initValue randomize <;> simp [setModel, hrandomize, hmodel]

theorem setModel_attrInitData (initValue : T.Carrier) (dev_attr : DeviceAttr) (node : XmlNode) :
    (setModel model initValue dev_attr node).2.attrInitData = dev_attr.attrInitData := by
  unfold setModel
  split
  · rfl
  · split <;> rfl

theorem parseValue_of_init_eq_none {dev_attr : DeviceAttr} {node : XmlNode}
    (hinit : (node.stripped "InitValue").bind convertInit = none) :
    parseValue convertInit convertSafe model dev_attr (some node) = (-1, dev_attr) := by
  simp [parseValue, hinit]

theorem parseValue_of_values {dev_attr : DeviceAttr} {node : XmlNode} {initValue : T.Carrier}
    {safeValue : Option T.Carrier}
    (hinit : (node.stripped "InitValue").bind convertInit = some initValue)
    (hsafe : Option.Rel (convertSafe · = some ·) (node.stripped "SafeValue") safeValue) :
    parseValue convertInit convertSafe model dev_attr (some node) =
      setModel model initValue { dev_attr with attrInitData := some ⟨T, initValue, safeValue⟩ }
        node := by
  cases hs : node.stripped "SafeValue" with
  | none =>
      rw [hs] at hsafe
      cases hsafe with
      | none => simp [parseValue, hinit, hs]
  | some sSafeValue =>
      rw [hs] at hsafe
      cases hsafe with
      | some hconvert => simp [parseValue, hinit, hs, hconvert]

theorem parseValue_of_not_safe {dev_attr : DeviceAttr} {node : XmlNode} {initValue : T.Carrier}
    (hinit : (node.stripped "InitValue").bind convertInit = some initValue)
    (hsafe : ∀ safeValue,
      ¬Option.Rel (convertSafe · = some ·) (node.stripped "SafeValue") safeValue) :
    parseValue convertInit convertSafe model dev_attr (some node) = (-1, dev_attr) := by
  cases hs : node.stripped "SafeValue" with
  | none =>
      rw [hs] at hsafe
      exact absurd .none (hsafe none)
  | some sSafeValue =>
      rw [hs] at hsafe
      cases hconvert : convertSafe sSafeValue with
      | none => simp [parseValue, hinit, hs, hconvert]
      | some safeValue => exact absurd (.some hconvert) (hsafe (some safeValue))

/-- The node is accepted, with what is stored then, or it is refused for lack of something. -/
theorem parseValue_cases (dev_attr : DeviceAttr) (node : Option XmlNode) :
    ((parseValue convertInit convertSafe model dev_attr node).1 = 0 ∧
      ∃ tag ∈ node, ∃ initValue safeValue,
        Accepts convertInit convertSafe model tag initValue safeValue ∧
        (parseValue convertInit convertSafe model dev_attr node).2.attrInitData =
          some ⟨T, initValue, safeValue⟩) ∨
    ((parseValue convertInit convertSafe model dev_attr node).1 = -1 ∧
      ∀ tag ∈ node, ∀ initValue safeValue,
        ¬Accepts convertInit convertSafe model tag initValue safeValue) := by
  cases node with
  | none => simp [parseValue]
  | some tag =>
      simp only [Option.mem_def, Option.some.injEq, forall_eq', exists_eq_left']
      cases hinit : (tag.stripped "InitValue").bind convertInit with
      | none =>
          right
          rw [parseValue_of_init_eq_none hinit]
          refine ⟨rfl, fun initValue safeValue haccepts => ?_⟩
          exact absurd (hinit.symm.trans haccepts.init) (by simp)
      | some initValue =>
          by_cases hsafe : ∃ safeValue,
              Option.Rel (convertSafe · = some ·) (tag.stripped "SafeValue") safeValue
          · obtain ⟨safeValue, hsafe⟩ := hsafe
            rw [parseValue_of_values hinit hsafe]
            rcases setModel_status with ⟨hstatus, hmodel⟩ | ⟨hstatus, randomize, hrandomize, hmodel⟩
            · left
              exact ⟨hstatus, initValue, safeValue, ⟨hinit, hsafe, hmodel⟩,
                setModel_attrInitData ..⟩
            · right
              refine ⟨hstatus, fun initValue' safeValue' haccepts => ?_⟩
              obtain rfl := Option.some.inj (hinit.symm.trans haccepts.init)
              simpa [hmodel] using haccepts.model randomize hrandomize
          · right
            rw [parseValue_of_not_safe hinit (not_exists.mp hsafe)]
            exact ⟨rfl, fun initValue' safeValue' haccepts => hsafe ⟨safeValue', haccepts.safe⟩⟩

theorem parseValue_of_missing {dev_attr : DeviceAttr} {node : Option XmlNode}
    (h : (node.bind (·.child "InitValue")).isNone) :
    parseValue convertInit convertSafe model dev_attr node = (-1, dev_attr) := by
  cases node with
  | none => rfl
  | some tag =>
      refine parseValue_of_init_eq_none ?_
      have hnone : tag.child "InitValue" = none := by simpa using h
      simp [XmlNode.stripped, hnone]

end Accepting

section Enum

variable (formats : RealFormats) {dev_attr : DeviceAttr}

theorem parseValueNodeEnum_of_enum (h : dev_attr.data_type = devEnum) (node : Option XmlNode) :
    parseValueNodeEnum formats dev_attr node =
      parseValue (T := .short) (enumValue dev_attr.enum_labels) (enumValue dev_attr.enum_labels)
        (discreteRandomModel formats) dev_attr node := by
  by_cases hmissing : (node.bind (·.child "InitValue")).isNone
  · rw [parseValueNodeEnum, if_pos hmissing, parseValue_of_missing hmissing]
  · rw [parseValueNodeEnum, if_neg hmissing, if_pos h]

theorem parseValueNodeEnum_of_short (h : dev_attr.data_type = devShort) (node : Option XmlNode) :
    parseValueNodeEnum formats dev_attr node = parseValueNode formats .short dev_attr node := by
  have hne : dev_attr.data_type ≠ devEnum := by
    rw [h]
    decide
  by_cases hmissing : (node.bind (·.child "InitValue")).isNone
  · rw [parseValueNodeEnum, if_pos hmissing, parseValueNode, parseValue_of_missing hmissing]
  · rw [parseValueNodeEnum, if_neg hmissing, if_neg hne, if_pos h]

end Enum

/-- The types that a configuration can give to an attribute, an enumeration with its labels. -/
inductive ValueType where
  | number (N : NumberType)
  | string
  | enum (possibleValues : List (List Char))
  | state

namespace ValueType

@[reducible]
def element : ValueType → ElementType
  | number N => N.element
  | string => .string
  | enum _ => .short
  | state => .state

def dataType : ValueType → Int
  | number .double => devDouble
  | number .float => devFloat
  | number .long => devLong
  | number .short => devShort
  | number .boolean => devBoolean
  | string => devString
  | enum _ => devEnum
  | state => devState

def possibleValues : ValueType → List (List Char)
  | enum possibleValues => possibleValues
  | _ => []

/-- The attribute before its value is parsed. The blanks of its labels have been removed too. -/
def deviceAttr (V : ValueType) : DeviceAttr where
  data_type := V.dataType
  enum_labels := V.possibleValues.map stripBlankSpaces

variable (formats : RealFormats)

/-- The specialization of `ParseValueNode` for the type. -/
def parseNode (V : ValueType) (node : Option XmlNode) : Int × DeviceAttr :=
  match V with
  | number .short => parseValueNodeEnum formats V.deviceAttr node
  | number N => parseValueNode formats N V.deviceAttr node
  | string => parseValueNodeString formats V.deviceAttr node
  | enum _ => parseValueNodeEnum formats V.deviceAttr node
  | state => parseValueNodeState formats V.deviceAttr node

/-- What the whole text denotes. The blanks around it are layout, but they belong to a string. -/
def Denotes : (V : ValueType) → List Char → V.element.Carrier → Prop
  | number .double, text, value =>
      ∃ q, IsReal (trimBlanks text) q ∧ formats.double.round q = some value
  | number .float, text, value =>
      ∃ q, IsReal (trimBlanks text) q ∧ formats.float.round q = some value
  | number .long, text, value => IsInteger (trimBlanks text) (Int32.toInt value)
  | number .short, text, value => IsInteger (trimBlanks text) (Int16.toInt value)
  | number .boolean, text, value => trimBlanks text = (cond value "true" "false").toList
  | string, text, value => value = String.ofList text
  | enum possibleValues, text, value => ∃ i : ℕ,
      (possibleValues.map trimBlanks)[i]? = some (trimBlanks text) ∧ Int16.toInt value = i
  | state, text, value => (String.ofList (trimBlanks text), value) ∈ tangoStateStrMap

def text (node : Option XmlNode) (name : String) : Option (List Char) :=
  (node.bind (·.child name)).map (·.text)

/-- An accepted node has its values stored as its texts denote them, and a text that denotes nothing is
not accepted. -/
structure AsConfigured (V : ValueType) (node : Option XmlNode) : Prop where
  stored : (V.parseNode formats node).1 = 0 → ∃ initValue safeValue,
    (V.parseNode formats node).2.attrInitData = some ⟨V.element, initValue, safeValue⟩ ∧
    (∃ s ∈ text node "InitValue", V.Denotes formats s initValue) ∧
    Option.Rel (V.Denotes formats) (text node "SafeValue") safeValue
  refused : ∀ name ∈ ["InitValue", "SafeValue"], ∀ s ∈ text node name,
    (∀ value, ¬V.Denotes formats s value) → (V.parseNode formats node).1 = -1

def HasDiscreteModel (randomize : XmlNode) : Prop :=
  ∃ tag ∈ randomize.child "DiscreteRandomModel", ∃ weights ∈ tag.child "ProbWeights",
    weights.childrenOf "Weight" ≠ []

/-- One of the models that the type can have is complete. -/
def HasModel : ValueType → XmlNode → Prop
  | number _, randomize =>
      (∃ tag ∈ randomize.child "GausRandomModel",
        ∀ name ∈ ["Min", "Max", "GausMean", "GausSigma"], (tag.child name).isSome) ∨
      (∃ tag ∈ randomize.child "UniformRandomModel",
        ∀ name ∈ ["Min", "Max"], (tag.child name).isSome) ∨
      HasDiscreteModel randomize
  | _, randomize => HasDiscreteModel randomize

/-- The text without its blanks is no label, or no state. -/
def Unknown : ValueType → List Char → Prop
  | enum possibleValues, text => stripBlanks text ∉ possibleValues.map stripBlanks
  | state, text => String.ofList (stripBlanks text) ∉ tangoStateStrMap.map Prod.fst
  | _, _ => False

/-- The node is refused, whatever its numbers and strings are. -/
inductive Refused (V : ValueType) (node : Option XmlNode) : Prop
  | init (h : text node "InitValue" = none)
  | unknown {name : String} {s : List Char} (hname : name ∈ ["InitValue", "SafeValue"])
      (hs : s ∈ text node name) (h : V.Unknown s)
  | model {tag randomize : XmlNode} (htag : tag ∈ node)
      (hrandomize : randomize ∈ tag.child "Randomize") (h : ¬V.HasModel randomize)

/-- The text is one that is converted to what it denotes: a numeral in the range of its type, `true` or
`false`, a string without blanks, a label whose last occurrence without its blanks is one of it with
them, the name of a state. -/
def Sound : ValueType → List Char → Prop
  | number .double, text => ∃ q, IsReal (trimBlanks text) q ∧ (formats.double.round q).isSome
  | number .float, text => ∃ q, IsReal (trimBlanks text) q ∧ (formats.float.round q).isSome
  | number .long, text => ∃ n, IsInteger (trimBlanks text) n ∧ -2147483648 ≤ n ∧ n ≤ 2147483647
  | number .short, text => ∃ n, IsInteger (trimBlanks text) n ∧ -32768 ≤ n ∧ n ≤ 32767
  | number .boolean, text => trimBlanks text = "true".toList ∨ trimBlanks text = "false".toList
  | string, text => NoBlanks text
  | enum possibleValues, text => ∃ before after : List (List Char), ∃ i : ℕ,
      possibleValues.map stripBlanks = before ++ stripBlanks text :: after ∧
      stripBlanks text ∉ after ∧ (Int16.ofNat before.length).toInt = i ∧
      (possibleValues.map trimBlanks)[i]? = some (trimBlanks text)
  | state, text => NoBlanks (trimBlanks text)

/-! ### The conversions -/

def convertInit : (V : ValueType) → List Char → Option V.element.Carrier
  | number N, input => some (getValueFromString formats N input)
  | string, input => some (String.ofList input)
  | enum possibleValues, input => enumValue (possibleValues.map stripBlankSpaces) input
  | state, input => tangoStateStrToDevState input

def convertSafe : (V : ValueType) → List Char → Option V.element.Carrier
  | string, input => some (String.ofList (extractString input))
  | V, input => V.convertInit formats input

def model : (V : ValueType) → V.element.Carrier → XmlNode → Option (AttrGenerationModel V.element)
  | number N => numberModel formats N
  | string => discreteRandomModel formats
  | enum _ => discreteRandomModel formats
  | state => discreteRandomModel formats

theorem parseNode_eq (V : ValueType) (node : Option XmlNode) :
    V.parseNode formats node =
      parseValue (V.convertInit formats) (V.convertSafe formats) (V.model formats) V.deviceAttr
        node := by
  cases V with
  | number N =>
      cases N with
      | short => exact parseValueNodeEnum_of_short formats rfl node
      | _ => rfl
  | string => rfl
  | enum possibleValues => exact parseValueNodeEnum_of_enum formats rfl node
  | state => rfl

variable {formats}

theorem extractString_noBlanks {text : List Char} (h : NoBlanks text) :
    extractString text = text := by
  have hnot : ∀ c ∈ text, (!isBlank c) = true := fun c hc => by simp [h c hc]
  rw [extractString, dropWhile_noBlanks h, List.takeWhile_eq_self_iff.mpr hnot]

theorem convertSafe_stripBlanks (V : ValueType) (text : List Char) :
    V.convertSafe formats (stripBlanks text) = V.convertInit formats (stripBlanks text) := by
  cases V with
  | string =>
      exact congrArg (fun s => some (String.ofList s))
        (extractString_noBlanks (noBlanks_stripBlanks text))
  | _ => rfl

theorem discreteRandomModel_isSome {T : ElementType} {initValue : T.Carrier} {randomize : XmlNode} :
    (discreteRandomModel formats initValue randomize).isSome ↔ HasDiscreteModel randomize := by
  unfold discreteRandomModel HasDiscreteModel
  cases randomize.child "DiscreteRandomModel" with
  | none => simp
  | some tag => cases hweights : tag.child "ProbWeights" <;> simp [hweights]

theorem gausRandomModel_isSome {N : NumberType} {initValue : N.element.Carrier}
    {randomize : XmlNode} :
    (gausRandomModel formats N initValue randomize).isSome ↔
      ∃ tag ∈ randomize.child "GausRandomModel",
        ∀ name ∈ ["Min", "Max", "GausMean", "GausSigma"], (tag.child name).isSome := by
  unfold gausRandomModel
  cases randomize.child "GausRandomModel" with
  | none => simp
  | some tag =>
      cases hmin : tag.child "Min" <;> cases hmax : tag.child "Max" <;>
        cases hmean : tag.child "GausMean" <;> cases hsigma : tag.child "GausSigma" <;>
        simp [XmlNode.stripped, hmin, hmax, hmean, hsigma]

theorem uniformRandomModel_isSome {N : NumberType} {initValue : N.element.Carrier}
    {randomize : XmlNode} :
    (uniformRandomModel formats N initValue randomize).isSome ↔
      ∃ tag ∈ randomize.child "UniformRandomModel",
        ∀ name ∈ ["Min", "Max"], (tag.child name).isSome := by
  unfold uniformRandomModel
  cases randomize.child "UniformRandomModel" with
  | none => simp
  | some tag =>
      cases hmin : tag.child "Min" <;> cases hmax : tag.child "Max" <;>
        simp [XmlNode.stripped, hmin, hmax]

theorem model_isSome (V : ValueType) {initValue : V.element.Carrier} {randomize : XmlNode} :
    (V.model formats initValue randomize).isSome ↔ V.HasModel randomize := by
  cases V with
  | number N =>
      calc (numberModel formats N initValue randomize).isSome
          ↔ (gausRandomModel formats N initValue randomize).isSome ∨
              (uniformRandomModel formats N initValue randomize).isSome ∨
              (discreteRandomModel formats initValue randomize).isSome := by
            simp only [numberModel, Option.isSome_or, Bool.or_eq_true]
            tauto
        _ ↔ (number N).HasModel randomize := by
            rw [gausRandomModel_isSome, uniformRandomModel_isSome, discreteRandomModel_isSome,
              HasModel]
  | string => exact discreteRandomModel_isSome
  | enum possibleValues => exact discreteRandomModel_isSome
  | state => exact discreteRandomModel_isSome

theorem convertInit_eq_none_iff (V : ValueType) (text : List Char) :
    V.convertInit formats (stripBlanks text) = none ↔ V.Unknown text := by
  cases V with
  | number N => simp [convertInit, Unknown]
  | string => simp [convertInit, Unknown]
  | enum possibleValues =>
      calc enumValue (possibleValues.map stripBlankSpaces) (stripBlanks text) = none
          ↔ Search.findLast (stripBlanks text) (possibleValues.map stripBlanks) = none :=
            Option.map_eq_none_iff
        _ ↔ (enum possibleValues).Unknown text := Search.findLast_eq_none_iff
  | state =>
      calc tangoStateStrMap.lookup (String.ofList (stripBlanks text)) = none
          ↔ ∀ c ∈ tangoStateStrMap, ¬c.1 = String.ofList (stripBlanks text) := by
            rw [List.lookup_eq_none_iff]
            exact forall₂_congr fun c _ => bne_iff_ne.trans ne_comm
        _ ↔ state.Unknown text := by
            simp only [Unknown, List.mem_map, not_exists, not_and]

theorem extract_eq {Bits : Type} {format : RealFormat Bits} {text : List Char} {q : ℚ} {value : Bits}
    (hreal : IsReal (trimBlanks text) q) (hround : format.round q = some value) :
    format.extract (stripBlanks text) = value := by
  rw [RealFormat.extract, stripBlanks_eq_of_trimBlanks hreal.noBlanks,
    dropWhile_noBlanks hreal.noBlanks, hreal.read_eq]
  simp [hround]

theorem extractInteger_eq {lowest highest n : ℤ} {text : List Char}
    (hinteger : IsInteger (trimBlanks text) n) (hlowest : lowest ≤ n) (hhighest : n ≤ highest) :
    extractInteger lowest highest (stripBlanks text) = n := by
  rw [extractInteger, stripBlanks_eq_of_trimBlanks hinteger.noBlanks,
    dropWhile_noBlanks hinteger.noBlanks, hinteger.read_eq.1]
  omega

theorem denotes_real_iff {Bits : Type} {format : RealFormat Bits} {text : List Char} :
    (∃ q, IsReal (trimBlanks text) q ∧ format.round q = some (format.extract (stripBlanks text))) ↔
      ∃ q, IsReal (trimBlanks text) q ∧ (format.round q).isSome := by
  constructor
  · rintro ⟨q, hreal, hround⟩
    exact ⟨q, hreal, by rw [hround]; rfl⟩
  · rintro ⟨q, hreal, hsome⟩
    obtain ⟨value, hround⟩ := Option.isSome_iff_exists.mp hsome
    exact ⟨q, hreal, by rw [extract_eq hreal hround, hround]⟩

theorem denotes_integer_iff {lowest highest : ℤ} {text : List Char} (wrap : ℤ → ℤ)
    (hwrap : ∀ n, lowest ≤ n → n ≤ highest → wrap n = n)
    (hrange : ∀ n, lowest ≤ wrap n ∧ wrap n ≤ highest) :
    IsInteger (trimBlanks text) (wrap (extractInteger lowest highest (stripBlanks text))) ↔
      ∃ n, IsInteger (trimBlanks text) n ∧ lowest ≤ n ∧ n ≤ highest := by
  constructor
  · intro hinteger
    exact ⟨_, hinteger, hrange _⟩
  · rintro ⟨n, hinteger, hlowest, hhighest⟩
    rwa [extractInteger_eq hinteger hlowest hhighest, hwrap n hlowest hhighest]

theorem denotes_boolean_iff {text : List Char} :
    trimBlanks text = (cond (getValueFromString formats .boolean (stripBlanks text))
      "true" "false").toList ↔ trimBlanks text = "true".toList ∨ trimBlanks text = "false".toList := by
  have hread : ∀ word : List Char, trimBlanks text = word → NoBlanks word →
      getValueFromString formats .boolean (stripBlanks text) =
        getValueFromString formats .boolean word := by
    intro word hword hblanks
    rw [stripBlanks_eq_of_trimBlanks (hword.symm ▸ hblanks), hword]
  constructor
  · intro h
    cases hvalue : getValueFromString formats .boolean (stripBlanks text) with
    | false => exact .inr (by rwa [hvalue] at h)
    | true => exact .inl (by rwa [hvalue] at h)
  · rintro (h | h)
    · rw [hread _ h (by decide)]
      exact h
    · rw [hread _ h (by decide)]
      exact h

theorem denotes_enum_iff {possibleValues : List (List Char)} {text : List Char}
    {value : ElementType.short.Carrier}
    (h : enumValue (possibleValues.map stripBlankSpaces) (stripBlanks text) = some value) :
    (enum possibleValues).Denotes formats text value ↔ (enum possibleValues).Sound formats text := by
  obtain ⟨n, hfind, rfl⟩ := Option.map_eq_some_iff.mp h
  have hn : Search.findLast (stripBlanks text) (possibleValues.map stripBlanks) = some n := hfind
  have hmem : stripBlanks text ∈ possibleValues.map stripBlanks := by
    by_contra hnot
    rw [Search.findLast_eq_none hnot] at hn
    cases hn
  obtain ⟨before, after, hsplit, hafter⟩ := Search.exists_append_cons_last hmem
  have hlength : ∀ {u v : List (List Char)},
      possibleValues.map stripBlanks = u ++ stripBlanks text :: v → stripBlanks text ∉ v →
      u.length = n := by
    intro u v huv hv
    have hlast := Search.findLast_append_cons (u := u) hv
    rw [← huv] at hlast
    exact Option.some.inj (hlast.symm.trans hn)
  constructor
  · rintro ⟨i, hi, hvalue⟩
    exact ⟨before, after, i, hsplit, hafter, by rwa [hlength hsplit hafter], hi⟩
  · rintro ⟨u, v, i, huv, hv, hvalue, hi⟩
    rw [hlength huv hv] at hvalue
    exact ⟨i, hi, hvalue⟩

theorem noBlanks_of_mem_tangoStateStrMap {name : List Char} {value : UInt32}
    (h : (String.ofList name, value) ∈ tangoStateStrMap) : NoBlanks name := by
  have hall : ∀ c ∈ tangoStateStrMap, NoBlanks c.1.toList := by decide
  simpa using hall _ h

theorem denotes_state_iff {text : List Char} {value : ElementType.state.Carrier}
    (h : tangoStateStrToDevState (stripBlanks text) = some value) :
    (String.ofList (trimBlanks text), value) ∈ tangoStateStrMap ↔ NoBlanks (trimBlanks text) := by
  refine ⟨noBlanks_of_mem_tangoStateStrMap, fun hblanks => ?_⟩
  rw [stripBlanks_eq_of_trimBlanks hblanks] at h
  obtain ⟨before, after, hsplit, -⟩ := List.lookup_eq_some_iff.mp h
  rw [hsplit]
  exact List.mem_append_right before List.mem_cons_self

/-- A converted text is converted to what it denotes just when it is a sound one. -/
theorem denotes_iff_sound (V : ValueType) {text : List Char} {value : V.element.Carrier}
    (h : V.convertInit formats (stripBlanks text) = some value) :
    V.Denotes formats text value ↔ V.Sound formats text := by
  cases V with
  | number N =>
      obtain rfl := Option.some.inj h
      cases N with
      | double => exact denotes_real_iff
      | float => exact denotes_real_iff
      | long =>
          refine denotes_integer_iff (fun n => (Int32.ofInt n).toInt) (fun n hlow hhigh => ?_)
            fun n => ?_
          · exact Int32.toInt_ofInt_of_le hlow (Int.lt_add_one_of_le hhigh)
          · exact ⟨Int32.le_toInt _, Int.le_of_lt_add_one (Int32.toInt_lt _)⟩
      | short =>
          refine denotes_integer_iff (fun n => (Int16.ofInt n).toInt) (fun n hlow hhigh => ?_)
            fun n => ?_
          · exact Int16.toInt_ofInt_of_le hlow (Int.lt_add_one_of_le hhigh)
          · exact ⟨Int16.le_toInt _, Int.le_of_lt_add_one (Int16.toInt_lt _)⟩
      | boolean => exact denotes_boolean_iff
  | string =>
      obtain rfl := Option.some.inj h
      calc String.ofList (stripBlanks text) = String.ofList text
          ↔ stripBlanks text = text := String.ofList_inj
        _ ↔ NoBlanks text := stripBlanks_eq_self_iff
  | enum possibleValues => exact denotes_enum_iff h
  | state => exact denotes_state_iff h

def Converts (formats : RealFormats) (V : ValueType) (s : List Char) (value : V.element.Carrier) :
    Prop :=
  V.convertInit formats (stripBlanks s) = some value

theorem stripped_eq (tag : XmlNode) (name : String) :
    tag.stripped name = (text (some tag) name).map stripBlanks := by
  simp only [XmlNode.stripped, text, Option.bind_some, Option.map_map]
  rfl

theorem accepts_iff {V : ValueType} {tag : XmlNode} {initValue : V.element.Carrier}
    {safeValue : Option V.element.Carrier} :
    Accepts (V.convertInit formats) (V.convertSafe formats) (V.model formats) tag initValue
        safeValue ↔
      (∃ s ∈ text (some tag) "InitValue", V.Converts formats s initValue) ∧
      Option.Rel (V.Converts formats) (text (some tag) "SafeValue") safeValue ∧
      ∀ randomize ∈ tag.child "Randomize", V.HasModel randomize := by
  have hinit : (tag.stripped "InitValue").bind (V.convertInit formats) = some initValue ↔
      ∃ s ∈ text (some tag) "InitValue", V.Converts formats s initValue := by
    rw [stripped_eq, Option.bind_map, Option.bind_eq_some_iff]
    rfl
  have hsafe : Option.Rel (V.convertSafe formats · = some ·) (tag.stripped "SafeValue") safeValue ↔
      Option.Rel (V.Converts formats) (text (some tag) "SafeValue") safeValue := by
    rw [stripped_eq, rel_map_iff]
    simp only [convertSafe_stripBlanks]
    rfl
  constructor
  · rintro ⟨hi, hs, hm⟩
    exact ⟨hinit.mp hi, hsafe.mp hs, fun r hr => V.model_isSome.mp (hm r hr)⟩
  · rintro ⟨hi, hs, hm⟩
    exact ⟨hinit.mpr hi, hsafe.mpr hs, fun r hr => V.model_isSome.mpr (hm r hr)⟩

theorem exists_converts {V : ValueType} {s : List Char} (h : ¬V.Unknown s) :
    ∃ value, V.Converts formats s value :=
  Option.ne_none_iff_exists'.mp fun hnone => h ((V.convertInit_eq_none_iff s).mp hnone)

theorem not_unknown {V : ValueType} {s : List Char} {value : V.element.Carrier}
    (h : V.Converts formats s value) : ¬V.Unknown s :=
  fun hunknown => by simpa [(V.convertInit_eq_none_iff s).mpr hunknown] using h.symm

variable (formats) in
/-- A node that is not refused has its texts converted and the values stored. -/
theorem parseNode_cases (V : ValueType) (node : Option XmlNode) :
    ((V.parseNode formats node).1 = 0 ∧ ¬V.Refused node ∧ ∃ initValue safeValue,
      (V.parseNode formats node).2.attrInitData = some ⟨V.element, initValue, safeValue⟩ ∧
      (∃ s ∈ text node "InitValue", V.Converts formats s initValue) ∧
      Option.Rel (V.Converts formats) (text node "SafeValue") safeValue) ∨
    ((V.parseNode formats node).1 = -1 ∧ V.Refused node) := by
  rw [parseNode_eq]
  rcases parseValue_cases V.deviceAttr node with
    ⟨hstatus, tag, htag, initValue, safeValue, haccepts, hstored⟩ | ⟨hstatus, hnot⟩
  · obtain rfl := htag
    obtain ⟨⟨s, hs, hconverts⟩, hsafe, hmodel⟩ := accepts_iff.mp haccepts
    left
    refine ⟨hstatus, fun hrefused => ?_, initValue, safeValue, hstored, ⟨s, hs, hconverts⟩, hsafe⟩
    cases hrefused with
    | init h => exact absurd (h.symm.trans hs) (by simp)
    | @unknown name s' hname hs' h =>
        rcases List.mem_pair.mp hname with rfl | rfl
        · obtain rfl := Option.some.inj (hs'.symm.trans hs)
          exact not_unknown hconverts h
        · obtain ⟨value, -, hvalue⟩ := rel_of_mem hsafe hs'
          exact not_unknown hvalue h
    | model htag hrandomize h =>
        obtain rfl := Option.some.inj htag
        exact h (hmodel _ hrandomize)
  · right
    refine ⟨hstatus, by_contra fun hrefused => ?_⟩
    obtain ⟨s, hs⟩ := Option.ne_none_iff_exists'.mp fun h => hrefused (.init h)
    have hconverts : ∀ name ∈ ["InitValue", "SafeValue"], ∀ s ∈ text node name,
        ∃ value, V.Converts formats s value :=
      fun name hname s hs => exists_converts fun h => hrefused (.unknown hname hs h)
    obtain ⟨initValue, hinit⟩ := hconverts "InitValue" (by simp) s hs
    obtain ⟨safeValue, hsafe⟩ := exists_rel (hconverts "SafeValue" (by simp))
    cases node with
    | none => cases hs
    | some tag =>
        refine hnot tag rfl initValue safeValue (accepts_iff.mpr ⟨⟨s, hs, hinit⟩, hsafe, ?_⟩)
        intro randomize hrandomize
        exact by_contra fun h => hrefused (.model rfl hrandomize h)

/-- **The values are what the configuration says just when the node is refused, or every text given in
it is sound.** -/
theorem asConfigured_iff (V : ValueType) (node : Option XmlNode) :
    V.AsConfigured formats node ↔
      V.Refused node ∨
        ∀ name ∈ ["InitValue", "SafeValue"], ∀ s ∈ text node name, V.Sound formats s := by
  rcases parseNode_cases formats V node with
    ⟨hstatus, hnot, initValue, safeValue, hstored, ⟨s, hs, hinit⟩, hsafe⟩ | ⟨hstatus, hrefused⟩
  · rw [or_iff_right hnot]
    constructor
    · intro h
      obtain ⟨initValue', safeValue', hstored', ⟨s', hs', hinit'⟩, hsafe'⟩ := h.stored hstatus
      obtain ⟨rfl, rfl⟩ : initValue = initValue' ∧ safeValue = safeValue' := by
        simpa using hstored.symm.trans hstored'
      intro name hname t ht
      rcases List.mem_pair.mp hname with rfl | rfl
      · obtain rfl := Option.some.inj (hs.symm.trans ht)
        obtain rfl := Option.some.inj (hs.symm.trans hs')
        exact (V.denotes_iff_sound hinit).mp hinit'
      · obtain ⟨value, hvalue, hconverts⟩ := rel_of_mem hsafe ht
        obtain ⟨value', hvalue', hdenotes⟩ := rel_of_mem hsafe' ht
        obtain rfl := Option.some.inj (hvalue.symm.trans hvalue')
        exact (V.denotes_iff_sound hconverts).mp hdenotes
    · intro h
      refine ⟨fun _ => ⟨initValue, safeValue, hstored, ⟨s, hs, ?_⟩, ?_⟩,
        fun name hname t ht hnone => ?_⟩
      · exact (V.denotes_iff_sound hinit).mpr (h "InitValue" (by simp) s hs)
      · refine rel_of_forall hsafe fun t ht value hconverts => ?_
        exact (V.denotes_iff_sound hconverts).mpr (h "SafeValue" (by simp) t ht)
      · obtain ⟨value, hconverts⟩ : ∃ value, V.Converts formats t value :=
          exists_converts fun hunknown => hnot (.unknown hname ht hunknown)
        exact absurd ((V.denotes_iff_sound hconverts).mpr (h name hname t ht)) (hnone value)
  · refine ⟨fun _ => .inl hrefused, fun _ => ⟨fun hzero => ?_, fun _ _ _ _ _ => hstatus⟩⟩
    exact absurd (hstatus.symm.trans hzero) (by decide)

def valveNode : XmlNode := .element "Value" [] none [.leaf "InitValue" " 1 ".toList]

/-- It is accepted and begins as closed. -/
theorem not_asConfigured_valve :
    ¬∀ formats, (number .boolean).AsConfigured formats (some valveNode) := by
  intro h
  have hconfigured := h ⟨⟨0, fun _ => none, fun _ => 0⟩, ⟨0, fun _ => none, fun _ => 0⟩⟩
  have hrefused : (-1 : Int) = 0 := by
    refine (hconfigured.refused "InitValue" (by simp) " 1 ".toList rfl fun value hdenotes => ?_).symm
    have htext : trimBlanks " 1 ".toList = (cond value "true" "false").toList := hdenotes
    cases value with
    | true => exact absurd htext (by decide)
    | false => exact absurd htext (by decide)
  exact absurd hrefused (by decide)

end ValueType

end DshLmc
