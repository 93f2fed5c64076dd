import DshLmc.Proof.FullNames
import DshLmc.Utils.AttrNode

/-!
# Variables of a formula

The value of a variable names an attribute of this device or of a proxy, and its quality if it ends
with the tag. The parser takes a name with five slashes for one of a proxy, cuts eight characters off
a name that has the tag anywhere, and removes all blanks. The elements for which the variable is what
is written are told from the others.
-/

namespace DshLmc

open Tango TangoUtils Search

/-- The tag at the end of a value. -/
def FormulaValueType.tag : FormulaValueType → List Char
  | .eATTR_VALUE => []
  | .eATTR_QUALITY_FACTOR => qualitySuffix

/-- A value that names what the variable stands for: the device of a proxy, the attribute, and its
quality if it ends with the tag. -/
structure NamedBy (v : FormulaVar) (value : List Char) : Prop where
  written : value = v.device_name.elim [] (fun device => device.toList ++ ['/'])
    ++ (v.attr_name.toList ++ v.attr_value_type.tag)
  attr : v.attr_name.toList ≠ [] ∧ '/' ∉ v.attr_name.toList
  quality : v.attr_value_type = .eATTR_QUALITY_FACTOR ↔ qualitySuffix <:+ value

/-- `name` or `name.quality`, with the name of an attribute of this device. -/
def IsInternal (value : List Char) : Prop :=
  ∃ name, (name ≠ [] ∧ '/' ∉ name ∧ ¬qualitySuffix <:+: name) ∧
    (value = name ∨ value = name ++ qualitySuffix)

/-- `tango://` and a host with a port. -/
def HasDomain (value : List Char) : Prop := tangoPrefix <:+: value ∧ ∃ p h r, HasFacility value p h r

/-- There is an attribute behind the last slash, with the tag at its end if anywhere. -/
def NamesAttr (value : List Char) : Prop :=
  ∀ u w, value = u ++ '/' :: w → '/' ∉ w → w ≠ [] ∧ w ≠ qualitySuffix ∧ QualityAtEnd w

theorem qualitySuffix_suffix_iff {u w : List Char} :
    qualitySuffix <:+ u ++ '/' :: w ↔ qualitySuffix <:+ w := by
  have hslash : '/' ∉ qualitySuffix := by decide
  constructor
  · intro h
    rcases List.suffix_or_suffix_of_suffix h (List.suffix_append u ('/' :: w)) with hq | hw
    · rcases List.suffix_cons_iff.mp hq with heq | hq
      · exact absurd (heq ▸ List.mem_cons_self) hslash
      · exact hq
    · exact absurd (hw.subset List.mem_cons_self) hslash
  · intro h
    exact h.trans ((List.suffix_cons '/' w).trans (List.suffix_append u ('/' :: w)))

theorem splitQuality_flag {domain_name device_name attr_name : List Char} {name : FullAttrName}
    (h : splitQuality domain_name device_name attr_name = .ok name) :
    (name.hasQualityTag ↔ qualitySuffix <:+: attr_name) ∧ name.attr_name <+: attr_name := by
  rw [splitQuality] at h
  rw [← isSome_find_iff]
  cases hfind : findText qualitySuffix attr_name with
  | none =>
      rw [hfind] at h
      obtain rfl := Except.ok.inj h
      simp
  | some n =>
      have hsub : TangoUtils.substr attr_name 0 (sizeSub attr_name.length 8) =
          .ok (attr_name.take ((sizeSub attr_name.length 8).getD attr_name.length)) := by
        rw [TangoUtils.substr, substr_of_le (Nat.zero_le _)]
        rfl
      rw [hfind] at h
      simp only [hsub] at h
      obtain rfl := Except.ok.inj h
      exact ⟨by simp, List.take_prefix ..⟩

theorem parseFullAttrName₅_domain {value : List Char} (hdomain : HasDomain value)
    (hslashes : 4 ≤ value.count '/') :
    ∃ u w name, value = u ++ '/' :: w ∧ '/' ∉ w ∧ parseFullAttrName₅ value = .ok name ∧
      name.domain_name ≠ [] ∧ name.domain_name ++ '/' :: name.device_name = u ∧
      (name.attr_name ++ name.suffix = w ↔ QualityAtEnd w) ∧
      (name.hasQualityTag ↔ qualitySuffix <:+: w) ∧ name.attr_name <+: w := by
  obtain ⟨htango, p, h, r, hfacility⟩ := hdomain
  have hne : p ++ h ≠ [] := by
    intro hnil
    have hlength := hfacility.length
    rw [(List.append_eq_nil_iff.mp hnil).1] at hlength
    cases hlength
  have hr : '/' ∈ r := by
    by_contra hnot
    have hcount := count_slash_of_hasFacility htango hfacility hnot
    omega
  obtain ⟨u, w, rfl, hw⟩ := exists_append_cons_last hr
  obtain ⟨name, hname, hdomain, hdevice, -, htag⟩ := splitQuality_eq (p ++ h) u w
  refine ⟨p ++ h ++ '/' :: u, w, name, ?_, hw, ?_, ?_, ?_, htag, splitQuality_flag hname⟩
  · rw [hfacility.eq, List.append_assoc (p ++ h), List.cons_append]
  · rw [parseFullAttrName₅_of_slash htango hfacility hw, hname]
  · rwa [hdomain]
  · rw [hdomain, hdevice]

theorem domain_eq_nil_of_not_tango {value : List Char} {name : FullAttrName}
    (htango : ¬tangoPrefix <:+: value) (h : parseFullAttrName₅ value = .ok name) :
    name.domain_name = [] := by
  by_cases hplain : PlainChecks value
  · obtain ⟨u, w, rfl, hw⟩ := exists_append_cons_last hplain.slash
    obtain ⟨name', hname', hdomain, -⟩ := splitQuality_eq [] u w
    rw [parseFullAttrName₅_plain htango hplain hw, hname'] at h
    rwa [← Except.ok.inj h]
  · rw [parseFullAttrName₅_of_not_plainChecks htango hplain] at h
    cases h

section Value

variable {lib : ConfigLibraries} {value attr_name : List Char} {device_name : Option (List Char)}
  {value_type : FormulaValueType}

theorem parseVarValue_fqdn (hfqdn : isFQDNProxyAttr lib value) :
    parseVarValue lib value = match parseFullAttrName₅ value with
      | .error _ => none
      | .ok name =>
          if name.domain_name = [] then none
          else
            some (some (name.domain_name ++ '/' :: name.device_name), name.attr_name,
              if name.hasQualityTag then .eATTR_QUALITY_FACTOR else .eATTR_VALUE) :=
  if_pos hfqdn

theorem parseVarValue_internal (hfqdn : ¬isFQDNProxyAttr lib value) :
    parseVarValue lib value = match findText qualitySuffix value with
      | none => some (none, value, .eATTR_VALUE)
      | some _ => some (none, value.take (value.length - 8), .eATTR_QUALITY_FACTOR) :=
  if_neg hfqdn

theorem tag_eq_suffix (name : FullAttrName) :
    FormulaValueType.tag (if name.hasQualityTag then .eATTR_QUALITY_FACTOR else .eATTR_VALUE) =
      name.suffix := by
  unfold FullAttrName.suffix
  split <;> rfl

theorem parseVarValue_proxy (hfqdn : isFQDNProxyAttr lib value) (hdomain : HasDomain value)
    (hslashes : 4 ≤ value.count '/') :
    ∃ u w attr_name value_type, value = u ++ '/' :: w ∧ '/' ∉ w ∧
      parseVarValue lib value = some (some u, attr_name, value_type) ∧
      (attr_name ++ value_type.tag = w ↔ QualityAtEnd w) ∧
      (value_type = .eATTR_QUALITY_FACTOR ↔ qualitySuffix <:+: w) ∧ attr_name <+: w := by
  obtain ⟨u, w, name, hvalue, hw, hname, hne, hpath, htag, hquality, hpre⟩ :=
    parseFullAttrName₅_domain hdomain hslashes
  refine ⟨u, w, name.attr_name,
    if name.hasQualityTag then .eATTR_QUALITY_FACTOR else .eATTR_VALUE, hvalue, hw, ?_, ?_, ?_,
    hpre⟩
  · rw [parseVarValue_fqdn hfqdn, hname]
    simp only [if_neg hne, hpath]
  · rwa [tag_eq_suffix]
  · rw [← hquality]
    cases name.hasQualityTag <;> simp

theorem four_le_count_slash (htokens : ∀ url, lib.count_tokens url ≤ url.count '/' + 1)
    (hfqdn : isFQDNProxyAttr lib value) : 4 ≤ value.count '/' := by
  have hsix : lib.count_tokens value = 6 := by simpa [isFQDNProxyAttr] using hfqdn
  have hle := htokens value
  omega

theorem parseVarValue_isSome_iff (htokens : ∀ url, lib.count_tokens url ≤ url.count '/' + 1) :
    (parseVarValue lib value).isSome ↔ (isFQDNProxyAttr lib value → HasDomain value) := by
  by_cases hfqdn : isFQDNProxyAttr lib value
  · rw [iff_comm, forall_prop_of_true hfqdn]
    constructor
    · intro hdomain
      obtain ⟨u, w, attr_name, value_type, -, -, hparse, -⟩ :=
        parseVarValue_proxy hfqdn hdomain (four_le_count_slash htokens hfqdn)
      rw [hparse]
      rfl
    · intro hsome
      rw [parseVarValue_fqdn hfqdn] at hsome
      by_contra hnot
      by_cases htango : tangoPrefix <:+: value
      · have hfailed : parseFullAttrName₅ value = .error .failed :=
          parseFullAttrName₅_of_not_hasFacility htango fun p h r hfacility =>
            hnot ⟨htango, p, h, r, hfacility⟩
        simp [hfailed] at hsome
      · cases hname : parseFullAttrName₅ value with
        | error e => simp [hname] at hsome
        | ok name => simp [hname, domain_eq_nil_of_not_tango htango hname] at hsome
  · refine iff_of_true ?_ fun h => absurd h hfqdn
    rw [parseVarValue_internal hfqdn]
    cases findText qualitySuffix value <;> rfl

/-- A proxy has the names that are written just when there is an attribute, with the tag at its end. -/
theorem namedBy_proxy_iff {u w : List Char} {address : ℕ} (hvalue : value = u ++ '/' :: w)
    (hw : '/' ∉ w) (htag : attr_name ++ value_type.tag = w ↔ QualityAtEnd w)
    (hquality : value_type = .eATTR_QUALITY_FACTOR ↔ qualitySuffix <:+: w) :
    NamedBy ⟨address, String.ofList attr_name, value_type, some (String.ofList u)⟩ value ↔
      NamesAttr value := by
  constructor
  · rintro ⟨hwritten, ⟨hne, -⟩, -⟩ u' w' hvalue' hw'
    obtain ⟨rfl, rfl⟩ := append_cons_last_inj hw hw' (hvalue.symm.trans hvalue')
    have hw_eq : attr_name ++ value_type.tag = w := by
      simpa [hvalue] using hwritten.symm
    have hattr : attr_name ≠ [] := by simpa using hne
    refine ⟨?_, ?_, htag.mp hw_eq⟩
    · rintro rfl
      exact hattr (List.append_eq_nil_iff.mp hw_eq).1
    · rintro rfl
      have htype : value_type = .eATTR_QUALITY_FACTOR := hquality.mpr List.infix_rfl
      rw [htype] at hw_eq
      exact hattr (List.append_left_eq_self.mp hw_eq)
  · intro h
    obtain ⟨hne, hne', hend⟩ := h u w hvalue hw
    have hw_eq := htag.mpr hend
    refine ⟨?_, ⟨?_, ?_⟩, ?_⟩
    · simp [hvalue, hw_eq]
    · simp only [String.toList_ofList]
      rintro rfl
      cases value_type with
      | eATTR_VALUE => exact hne hw_eq.symm
      | eATTR_QUALITY_FACTOR => exact hne' hw_eq.symm
    · simp only [String.toList_ofList]
      exact fun hmem => hw (hw_eq ▸ List.mem_append_left _ hmem)
    · rw [hvalue, qualitySuffix_suffix_iff]
      exact hquality.trans ⟨hend, List.IsSuffix.isInfix⟩

theorem namedBy_parsed_iff (htokens : ∀ url, lib.count_tokens url ≤ url.count '/' + 1)
    (hfqdn : isFQDNProxyAttr lib value)
    (h : parseVarValue lib value = some (device_name, attr_name, value_type)) (address : ℕ) :
    device_name.isSome ∧
      (NamedBy ⟨address, String.ofList attr_name, value_type, device_name.map String.ofList⟩ value ↔
        NamesAttr value) := by
  have hdomain := (parseVarValue_isSome_iff htokens).mp (by rw [h]; rfl) hfqdn
  obtain ⟨u, w, attr_name', value_type', hvalue, hw, hparse, htag, hquality, -⟩ :=
    parseVarValue_proxy hfqdn hdomain (four_le_count_slash htokens hfqdn)
  obtain ⟨rfl, rfl, rfl⟩ :
      some u = device_name ∧ attr_name' = attr_name ∧ value_type' = value_type := by
    simpa using hparse.symm.trans h
  exact ⟨rfl, namedBy_proxy_iff hvalue hw htag hquality⟩

theorem isNone_device (hfqdn : ¬isFQDNProxyAttr lib value)
    (h : parseVarValue lib value = some (device_name, attr_name, value_type)) :
    device_name = none := by
  rw [parseVarValue_internal hfqdn] at h
  cases hfind : findText qualitySuffix value <;> simp_all

theorem namedBy_internal {address : ℕ} (hfqdn : ¬isFQDNProxyAttr lib value) (hvalue : IsInternal value)
    (h : parseVarValue lib value = some (device_name, attr_name, value_type)) :
    NamedBy ⟨address, String.ofList attr_name, value_type, device_name.map String.ofList⟩ value := by
  rw [parseVarValue_internal hfqdn] at h
  obtain ⟨name, ⟨hne, hslash, htag⟩, rfl | rfl⟩ := hvalue
  · rw [find_eq_none_iff.mpr htag] at h
    obtain ⟨rfl, rfl, rfl⟩ : none = device_name ∧ value = attr_name ∧ .eATTR_VALUE = value_type := by
      simpa using h
    refine ⟨?_, by simpa using ⟨hne, hslash⟩, ?_⟩
    · simp [FormulaValueType.tag]
    · simpa using fun hend : qualitySuffix <:+ value => htag hend.isInfix
  · have hinfix : qualitySuffix <:+: name ++ qualitySuffix := (List.suffix_append ..).isInfix
    obtain ⟨n, hn⟩ := Option.isSome_iff_exists.mp (isSome_find_iff.mpr hinfix)
    have htake : (name ++ qualitySuffix).take ((name ++ qualitySuffix).length - 8) = name := by
      rw [List.length_append, show qualitySuffix.length = 8 from rfl, Nat.add_sub_cancel,
        List.take_left]
    rw [hn, htake] at h
    obtain ⟨rfl, rfl, rfl⟩ :
        none = device_name ∧ name = attr_name ∧ .eATTR_QUALITY_FACTOR = value_type := by
      simpa using h
    refine ⟨?_, by simpa using ⟨hne, hslash⟩, ?_⟩
    · simp [FormulaValueType.tag]
    · simp

theorem noBlanks_of_parseVarValue (htokens : ∀ url, lib.count_tokens url ≤ url.count '/' + 1)
    (hblanks : NoBlanks value)
    (h : parseVarValue lib value = some (device_name, attr_name, value_type)) :
    NoBlanks attr_name ∧ ∀ device ∈ device_name, NoBlanks device := by
  by_cases hfqdn : isFQDNProxyAttr lib value
  · have hdomain := (parseVarValue_isSome_iff htokens).mp (by rw [h]; rfl) hfqdn
    obtain ⟨u, w, attr_name', value_type', rfl, -, hparse, -, -, hpre⟩ :=
      parseVarValue_proxy hfqdn hdomain (four_le_count_slash htokens hfqdn)
    obtain ⟨rfl, rfl, rfl⟩ :
        some u = device_name ∧ attr_name' = attr_name ∧ value_type' = value_type := by
      simpa using hparse.symm.trans h
    constructor
    · intro c hc
      exact hblanks c (List.mem_append_right u (List.mem_cons_of_mem '/' (hpre.subset hc)))
    · rintro device hdevice c hc
      obtain rfl := Option.some.inj hdevice
      exact hblanks c (List.mem_append_left _ hc)
  · rw [parseVarValue_internal hfqdn] at h
    cases hfind : findText qualitySuffix value with
    | none =>
        obtain ⟨rfl, rfl, -⟩ : none = device_name ∧ value = attr_name ∧ .eATTR_VALUE = value_type := by
          simpa [hfind] using h
        exact ⟨hblanks, by simp⟩
    | some n =>
        obtain ⟨rfl, rfl, -⟩ : none = device_name ∧ value.take (value.length - 8) = attr_name ∧
            .eATTR_QUALITY_FACTOR = value_type := by
          simpa [hfind] using h
        exact ⟨fun c hc => hblanks c (List.mem_of_mem_take hc), by simp⟩

end Value

theorem NamedBy.noBlanks {v : FormulaVar} {value : List Char} (h : NamedBy v value)
    (hattr : NoBlanks v.attr_name.toList)
    (hdevice : ∀ device ∈ v.device_name, NoBlanks device.toList) :
    NoBlanks value := by
  have htag : NoBlanks v.attr_value_type.tag := by
    cases v.attr_value_type with
    | eATTR_VALUE => decide
    | eATTR_QUALITY_FACTOR => decide
  rw [h.written]
  refine noBlanks_append ?_ (noBlanks_append hattr htag)
  cases hname : v.device_name with
  | none => decide
  | some device => exact noBlanks_append (hdevice device hname) (by decide)

namespace XmlNode

variable {node : XmlNode} {name : String}

def trimmed (node : XmlNode) (name : String) : Option (List Char) :=
  (node.child name).map (trimBlanks ·.text)

def Tidy (node : XmlNode) (name : String) : Prop := ∀ s ∈ node.trimmed name, NoBlanks s

theorem stripped_eq_map_trimmed (node : XmlNode) (name : String) :
    node.stripped name = (node.trimmed name).map stripBlanks := by
  rw [stripped, trimmed, Option.map_map]
  congr 1
  funext tag
  exact (stripBlanks_trimBlanks tag.text).symm

theorem Tidy.stripped_eq (h : node.Tidy name) : node.stripped name = node.trimmed name := by
  rw [stripped_eq_map_trimmed]
  cases htext : node.trimmed name with
  | none => rfl
  | some s => exact congrArg some (stripBlanks_eq_self_iff.mpr (h s htext))

theorem isSome_stripped : (node.stripped name).isSome ↔ (node.child name).isSome := by
  rw [stripped, Option.isSome_map]

theorem noBlanks_stripped {s : List Char} (h : s ∈ node.stripped name) : NoBlanks s := by
  obtain ⟨tag, -, rfl⟩ := Option.map_eq_some_iff.mp h
  exact noBlanks_stripBlanks tag.text

end XmlNode

/-! ### Variables -/

/-- What a proxy is expected to have, by the texts of its element. -/
structure Expects (lib : ConfigLibraries) (node : XmlNode) (text : String → Option (List Char))
    (proxy : ProxyAttrInit) : Prop where
  init : ∃ s ∈ text "InitDataValue", proxy.attr_init_value_str = String.ofList s
  type : ∃ s ∈ text "ExpDataType", proxy.exp_data_type = getAttrDataType s
  format : ∃ s ∈ text "ExpDataFormat", proxy.exp_data_format = getAttrDataFormat s
  size : proxy.exp_data_size =
    (node.child "ExpDataSize").elim 1 fun tag => (lib.as_llong tag.text).toInt

/-- What a `FormulaVar` element has to have for the parser. -/
structure CompleteVar (lib : ConfigLibraries) (node : XmlNode) : Prop where
  label : (node.child "Label").isSome
  value : ∃ s ∈ node.stripped "Value", isFQDNProxyAttr lib s → HasDomain s
  init : (node.child "InitDataValue").isSome
  type : ∃ s ∈ node.stripped "ExpDataType", 0 ≤ getAttrDataType s
  format : ∃ s ∈ node.stripped "ExpDataFormat", 0 ≤ getAttrDataFormat s ∧
    (getAttrDataFormat s = Tango.spectrum → (node.child "ExpDataSize").isSome)
  size : ∀ tag ∈ node.child "ExpDataSize", 0 < lib.as_llong tag.text

/-- What the parser makes of it. -/
structure ParsedVar (lib : ConfigLibraries) (node : XmlNode) (v : ConfiguredVar) : Prop where
  label : v.label ∈ node.stripped "Label"
  value : ∃ s ∈ node.stripped "Value", ∃ device_name attr_name value_type,
    parseVarValue lib s = some (device_name, attr_name, value_type) ∧
    v.var = ⟨v.var.address, String.ofList attr_name, value_type, device_name.map String.ofList⟩ ∧
    v.proxy.isSome = device_name.isSome
  proxy : ∀ proxy ∈ v.proxy, Expects lib node node.stripped proxy

section Variables

variable {lib : ConfigLibraries} {node : XmlNode} {address : ℕ} {v : ConfiguredVar}

theorem expDataSize_eq_some_iff {data_format : Int} {data_size : Int64} :
    expDataSize lib data_format node = some data_size ↔
      (data_format = Tango.spectrum → (node.child "ExpDataSize").isSome) ∧
      (∀ tag ∈ node.child "ExpDataSize", 0 < lib.as_llong tag.text) ∧
      data_size = (node.child "ExpDataSize").elim 1 (lib.as_llong ·.text) := by
  unfold expDataSize
  cases node.child "ExpDataSize" with
  | none => simp [eq_comm]
  | some tag => simp [eq_comm]

theorem parseFormulaVar_eq_some (htokens : ∀ url, lib.count_tokens url ≤ url.count '/' + 1)
    (h : parseFormulaVar lib address node = some v) :
    CompleteVar lib node ∧ ParsedVar lib node v ∧ v.var.address = address := by
  simp only [parseFormulaVar, Option.bind_eq_bind, Option.bind_eq_some_iff] at h
  obtain ⟨label, hlabel, value, hvalue, init, hinit, type, htype, format, hformat, h⟩ := h
  rw [Option.ite_none_left_eq_some, Option.bind_eq_some_iff] at h
  obtain ⟨hknown, size, hsize, h⟩ := h
  rw [Option.bind_eq_some_iff] at h
  obtain ⟨⟨device_name, attr_name, value_type⟩, hparse, h⟩ := h
  obtain rfl := Option.some.inj h
  obtain ⟨hspectrum, hpositive, rfl⟩ := expDataSize_eq_some_iff.mp hsize
  rw [not_or, not_lt, not_lt] at hknown
  have hdomain : isFQDNProxyAttr lib value → HasDomain value :=
    (parseVarValue_isSome_iff htokens).mp (by rw [hparse]; rfl)
  refine ⟨⟨?_, ⟨value, hvalue, hdomain⟩, ?_, ⟨type, htype, hknown.1⟩,
    ⟨format, hformat, hknown.2, hspectrum⟩, hpositive⟩, ⟨hlabel, ?_, ?_⟩, rfl⟩
  · rw [← XmlNode.isSome_stripped, hlabel]
    rfl
  · rw [← XmlNode.isSome_stripped, hinit]
    rfl
  · exact ⟨value, hvalue, device_name, attr_name, value_type, hparse, rfl, by simp⟩
  · intro proxy hproxy
    obtain ⟨device, -, rfl⟩ := Option.map_eq_some_iff.mp hproxy
    refine ⟨⟨init, hinit, rfl⟩, ⟨type, htype, rfl⟩, ⟨format, hformat, rfl⟩, ?_⟩
    cases node.child "ExpDataSize" <;> rfl

theorem exists_parseFormulaVar (htokens : ∀ url, lib.count_tokens url ≤ url.count '/' + 1)
    (h : CompleteVar lib node) (address : ℕ) : ∃ v, parseFormulaVar lib address node = some v := by
  obtain ⟨label, hlabel⟩ := Option.isSome_iff_exists.mp (XmlNode.isSome_stripped.mpr h.label)
  obtain ⟨init, hinit⟩ := Option.isSome_iff_exists.mp (XmlNode.isSome_stripped.mpr h.init)
  obtain ⟨value, hvalue, hdomain⟩ := h.value
  obtain ⟨type, htype, hknown⟩ := h.type
  obtain ⟨format, hformat, hknown', hspectrum⟩ := h.format
  obtain ⟨⟨device_name, attr_name, value_type⟩, hparse⟩ :=
    Option.isSome_iff_exists.mp ((parseVarValue_isSome_iff htokens).mpr hdomain)
  have hsize := expDataSize_eq_some_iff.mpr ⟨hspectrum, h.size, rfl⟩
  have hnot : ¬(getAttrDataType type < 0 ∨ getAttrDataFormat format < 0) := by omega
  simp only [Option.mem_def] at hvalue htype hformat
  simp only [parseFormulaVar, hlabel, hvalue, hinit, htype, hformat, Option.bind_eq_bind,
    Option.bind_some, if_neg hnot, hsize, hparse]
  exact ⟨_, rfl⟩

end Variables

theorem noBlanks_of_lookup {table : List (String × Int)} {s : List Char}
    (htable : ∀ c ∈ table, NoBlanks c.1.toList)
    (h : 0 ≤ (table.lookup (String.ofList s)).getD (-1)) : NoBlanks s := by
  cases hlookup : table.lookup (String.ofList s) with
  | none =>
      rw [hlookup] at h
      exact absurd h (by decide)
  | some n =>
      obtain ⟨before, after, rfl, -⟩ := List.lookup_eq_some_iff.mp hlookup
      simpa using htable _ (List.mem_append_right before List.mem_cons_self)

theorem noBlanks_of_getAttrDataType {s : List Char} (h : 0 ≤ getAttrDataType s) : NoBlanks s :=
  noBlanks_of_lookup (by decide) h

theorem noBlanks_of_getAttrDataFormat {s : List Char} (h : 0 ≤ getAttrDataFormat s) : NoBlanks s :=
  noBlanks_of_lookup (by decide) h

/-- The variable is what the texts of the element say. -/
structure FaithfulVar (lib : ConfigLibraries) (node : XmlNode) (v : ConfiguredVar) : Prop where
  named : ∃ s ∈ node.trimmed "Value", NamedBy v.var s
  expects : ∀ proxy ∈ v.proxy, Expects lib node node.trimmed proxy

/-- The element cannot be made into a variable. -/
inductive MalformedVar (lib : ConfigLibraries) (node : XmlNode) : Prop
  | missing {name : String} (h : node.child name = none)
      (hname : name ∈ ["Label", "Value", "InitDataValue", "ExpDataType", "ExpDataFormat"])
  | size {s : List Char} (hs : s ∈ node.trimmed "ExpDataFormat") (h : getAttrDataFormat s = Tango.spectrum)
      (hsize : node.child "ExpDataSize" = none)
  | type {s : List Char} (hs : s ∈ node.trimmed "ExpDataType") (h : getAttrDataType s < 0)
  | name {s : List Char} (hs : s ∈ node.trimmed "Value") (hfqdn : ¬isFQDNProxyAttr lib s)
      (h : ¬IsInternal s)

/-- The texts are read as they are written, and the value is of a form that is. -/
structure SoundVar (lib : ConfigLibraries) (node : XmlNode) : Prop where
  value : node.Tidy "Value"
  type : node.Tidy "ExpDataType"
  proxy : ∀ s ∈ node.trimmed "Value", isFQDNProxyAttr lib s →
    NamesAttr s ∧ node.Tidy "InitDataValue" ∧ node.Tidy "ExpDataFormat"
  internal : ∀ s ∈ node.trimmed "Value", ¬isFQDNProxyAttr lib s → IsInternal s

section Sound

variable {lib : ConfigLibraries} {node : XmlNode} {v : ConfiguredVar}

theorem tidy_of_mem {name : String} {s : List Char} (hs : s ∈ node.trimmed name) (h : NoBlanks s) :
    node.Tidy name := by
  intro s' hs'
  obtain rfl := Option.some.inj (hs.symm.trans hs')
  exact h

theorem not_malformedVar (hcomplete : CompleteVar lib node) (hsound : SoundVar lib node) :
    ¬MalformedVar lib node := by
  intro hmalformed
  cases hmalformed with
  | @missing name h hname =>
      have hstripped : ∀ {s : List Char}, s ∈ node.stripped name → False := by
        intro s hs
        have hsome := XmlNode.isSome_stripped.mp (Option.isSome_of_mem hs)
        simp [h] at hsome
      obtain ⟨value, hvalue, -⟩ := hcomplete.value
      obtain ⟨type, htype, -⟩ := hcomplete.type
      obtain ⟨format, hformat, -⟩ := hcomplete.format
      simp only [List.mem_cons, List.not_mem_nil, or_false] at hname
      rcases hname with rfl | rfl | rfl | rfl | rfl
      · simpa [h] using hcomplete.label
      · exact hstripped hvalue
      · simpa [h] using hcomplete.init
      · exact hstripped htype
      · exact hstripped hformat
  | @size s hs h hsize =>
      have hblanks : NoBlanks s := noBlanks_of_getAttrDataFormat (by rw [h]; decide)
      obtain ⟨format, hformat, -, hspectrum⟩ := hcomplete.format
      rw [(tidy_of_mem hs hblanks).stripped_eq] at hformat
      obtain rfl := Option.some.inj (hs.symm.trans hformat)
      simpa [hsize] using hspectrum h
  | @type s hs h =>
      obtain ⟨type, htype, hknown⟩ := hcomplete.type
      rw [hsound.type.stripped_eq] at htype
      obtain rfl := Option.some.inj (hs.symm.trans htype)
      omega
  | name hs hfqdn h => exact h (hsound.internal _ hs hfqdn)

theorem faithfulVar_of_sound (htokens : ∀ url, lib.count_tokens url ≤ url.count '/' + 1)
    (hparsed : ParsedVar lib node v) (hsound : SoundVar lib node) : FaithfulVar lib node v := by
  obtain ⟨s, hs, device_name, attr_name, value_type, hparse, hvar, hsome⟩ := hparsed.value
  rw [hsound.value.stripped_eq] at hs
  by_cases hfqdn : isFQDNProxyAttr lib s
  · obtain ⟨hnames, hinit, hformat⟩ := hsound.proxy s hs hfqdn
    refine ⟨⟨s, hs, ?_⟩, fun proxy hproxy => ?_⟩
    · rw [hvar]
      exact (namedBy_parsed_iff htokens hfqdn hparse _).2.mpr hnames
    · obtain ⟨hinit', htype', hformat', hsize⟩ := hparsed.proxy proxy hproxy
      rw [hinit.stripped_eq] at hinit'
      rw [hsound.type.stripped_eq] at htype'
      rw [hformat.stripped_eq] at hformat'
      exact ⟨hinit', htype', hformat', hsize⟩
  · refine ⟨⟨s, hs, ?_⟩, fun proxy hproxy => ?_⟩
    · rw [hvar]
      exact namedBy_internal hfqdn (hsound.internal s hs hfqdn) hparse
    · rw [isNone_device hfqdn hparse, Option.mem_def.mp hproxy] at hsome
      cases hsome

theorem soundVar_of_faithful (htokens : ∀ url, lib.count_tokens url ≤ url.count '/' + 1)
    (hcomplete : CompleteVar lib node) (hparsed : ParsedVar lib node v)
    (hfaithful : FaithfulVar lib node v) (hwell : ¬MalformedVar lib node) : SoundVar lib node := by
  obtain ⟨s, hs, hnamed⟩ := hfaithful.named
  obtain ⟨s', hs', device_name, attr_name, value_type, hparse, hvar, hsome⟩ := hparsed.value
  -- what is named has no blanks, so the value has none
  have hvalue : node.Tidy "Value" := by
    obtain ⟨hattr, hdevice⟩ :=
      noBlanks_of_parseVarValue htokens (XmlNode.noBlanks_stripped hs') hparse
    rw [hvar] at hnamed
    refine tidy_of_mem hs (hnamed.noBlanks (by simpa using hattr) ?_)
    intro device hmem
    obtain ⟨device', hdevice', rfl⟩ := Option.map_eq_some_iff.mp hmem
    simpa using hdevice device' hdevice'
  rw [hvalue.stripped_eq] at hs'
  obtain rfl := Option.some.inj (hs.symm.trans hs')
  have htype : node.Tidy "ExpDataType" := by
    intro t ht
    exact noBlanks_of_getAttrDataType (Int.not_lt.mp fun h => hwell (.type ht h))
  refine ⟨hvalue, htype, fun t ht hfqdn => ?_,
    fun t ht hfqdn => by_contra fun h => hwell (.name ht hfqdn h)⟩
  obtain rfl := Option.some.inj (hs.symm.trans ht)
  obtain ⟨hdevice, hiff⟩ := namedBy_parsed_iff htokens hfqdn hparse v.var.address
  rw [hvar] at hnamed
  obtain ⟨proxy, hproxy⟩ := Option.isSome_iff_exists.mp (hsome.trans hdevice)
  obtain ⟨⟨i, hi, hieq⟩, -, ⟨f, hf, hfeq⟩, -⟩ := hfaithful.expects proxy hproxy
  obtain ⟨⟨i', hi', hieq'⟩, -, ⟨f', hf', hfeq'⟩, -⟩ := hparsed.proxy proxy hproxy
  refine ⟨hiff.mp hnamed, ?_, ?_⟩
  · obtain rfl := String.ofList_injective (hieq.symm.trans hieq')
    exact tidy_of_mem hi (XmlNode.noBlanks_stripped hi')
  · obtain ⟨format, hformat, hknown, -⟩ := hcomplete.format
    obtain rfl := Option.some.inj (hformat.symm.trans hf')
    exact tidy_of_mem hf (noBlanks_of_getAttrDataFormat (by rw [← hfeq, hfeq']; exact hknown))

end Sound

end DshLmc
