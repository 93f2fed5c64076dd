import DshLmc.Core.Formulas

/-!
# Which attributes a proxy that is down marks

`ProcessProxyRunStatusInfo` gives the attributes of the formulas that `HasProxyInFormulaVars` finds
their safe values. It finds those with the name of the proxy as it is spelled, and a spectrum of
states is cast to a spectrum of booleans. Where the proxy is hard offline the quality factor comes
out valid.
-/

namespace DshLmc

open Tango

/-- What `set_data_to_safe` writes in the data. -/
def AttrData.safeValue (d : AttrData) : Value :=
  (d.m_data.fill d.m_safe_data).toValue

namespace Attribute

/-- A dynamic attribute whose data `SetDynAttrToSafeValue` casts to a type that they do not have. -/
def IsMiscast (attr : Attribute) : Prop :=
  attr.data ≠ none ∧ attr.data_format = Tango.spectrum ∧ attr.data_type = devState

variable {attr : Attribute} {quality : Option AttrQuality} {now : TimeVal}

theorem setDataToSafe_of_data_eq_none (h : attr.data = none) :
    attr.setDataToSafe quality now = attr := by
  cases attr
  subst h
  rfl

@[simp]
theorem setDataToSafe_setDataToSafe :
    (attr.setDataToSafe quality now).setDataToSafe quality now = attr.setDataToSafe quality now := by
  cases attr with
  | mk data_type data_format is_writ_associated enum_labels max_dim_x data typed =>
      cases data with
      | none => rfl
      | some d => simp [setDataToSafe]

theorem isMiscast_setDataToSafe_iff :
    (attr.setDataToSafe quality now).IsMiscast ↔ attr.IsMiscast := by
  simp [IsMiscast, setDataToSafe]

theorem format_of_data_eq_some {d : AttrData} (h : attr.data = some d) :
    attr.data_format = Tango.scalar ∨ attr.data_format = Tango.spectrum := by
  rw [← (attr.typed d h).2]
  cases d.m_data with
  | scalar value => exact Or.inl rfl
  | spectrum values => exact Or.inr rfl

variable {T : ElementType} (sys : WriteSystem) (attr_name : String) (changeAttrQuality : Bool)
  (attr_quality : AttrQuality)

theorem setDynAttrSafeValueInManager_of_data_eq_some {d : AttrData} (hdata : attr.data = some d)
    (hT : d.T = T) :
    attr.setDynAttrSafeValueInManager T attr.data_format changeAttrQuality attr_quality now
      = (attr.setDataToSafe (if changeAttrQuality then some attr_quality else none) now, .ok) := by
  have hformat : d.m_data.format = attr.data_format := (attr.typed d hdata).2
  rw [setDynAttrSafeValueInManager, hdata]
  exact if_pos ⟨hT, hformat⟩

/-- A setter that is called in the type of the data makes them safe, whether or not it throws
afterwards. -/
theorem setScalarDynAttrToSafeValue_spec (hformat : attr.data_format = Tango.scalar)
    (hT : dataElementType attr.data_type = some T) :
    (attr.setScalarDynAttrToSafeValue sys attr_name T changeAttrQuality attr_quality).1
        = attr.setDataToSafe (if changeAttrQuality then some attr_quality else none) sys.now
      ∧ (attr.setScalarDynAttrToSafeValue sys attr_name T changeAttrQuality attr_quality).2
        ≠ .undefined := by
  rw [setScalarDynAttrToSafeValue, if_neg (not_not_intro hformat)]
  cases hdata : attr.data with
  | none =>
      rw [setDataToSafe_of_data_eq_none hdata]
      simp [setDynAttrSafeValueInManager, hdata]
  | some d =>
      have hdT : d.T = T := Option.some.inj ((attr.typed d hdata).1.symm.trans hT)
      rw [← hformat, setDynAttrSafeValueInManager_of_data_eq_some _ _ hdata hdT]
      generalize attr.setDataToSafe _ sys.now = safe
      dsimp only
      split <;> exact ⟨rfl, by simp⟩

theorem setSpectrumDynAttrToSafeValue_spec (hformat : attr.data_format = Tango.spectrum)
    (hT : dataElementType attr.data_type = some T) :
    (attr.setSpectrumDynAttrToSafeValue sys attr_name T changeAttrQuality attr_quality).1
        = attr.setDataToSafe (if changeAttrQuality then some attr_quality else none) sys.now
      ∧ (attr.setSpectrumDynAttrToSafeValue sys attr_name T changeAttrQuality attr_quality).2
        ≠ .undefined := by
  rw [setSpectrumDynAttrToSafeValue, if_neg (not_not_intro hformat)]
  cases hdata : attr.data with
  | none =>
      rw [setDataToSafe_of_data_eq_none hdata]
      simp [setDynAttrSafeValueInManager, hdata]
  | some d =>
      have hdT : d.T = T := Option.some.inj ((attr.typed d hdata).1.symm.trans hT)
      rw [← hformat, setDynAttrSafeValueInManager_of_data_eq_some _ _ hdata hdT]
      generalize attr.setDataToSafe _ sys.now = safe
      dsimp only
      split
      · exact ⟨rfl, by simp⟩
      · split <;> exact ⟨rfl, by simp⟩

theorem setSpectrumDynAttrToSafeValue_boolean (hformat : attr.data_format = Tango.spectrum)
    (hT : dataElementType attr.data_type = some .state) :
    (attr.setSpectrumDynAttrToSafeValue sys attr_name .boolean changeAttrQuality attr_quality).1
        = attr
      ∧ ((attr.setSpectrumDynAttrToSafeValue sys attr_name .boolean changeAttrQuality
          attr_quality).2 = .undefined ↔ attr.data ≠ none) := by
  rw [setSpectrumDynAttrToSafeValue, if_neg (not_not_intro hformat)]
  cases hdata : attr.data with
  | none => simp [setDynAttrSafeValueInManager, hdata]
  | some d =>
      have hdT : d.T = .state := Option.some.inj ((attr.typed d hdata).1.symm.trans hT)
      simp [setDynAttrSafeValueInManager, hdata, hdT]

theorem setDynAttrToSafeValue_spec :
    ((attr.setDynAttrToSafeValue sys attr_name changeAttrQuality attr_quality).2 = .undefined
        ↔ attr.IsMiscast)
      ∧ (¬ attr.IsMiscast →
        (attr.setDynAttrToSafeValue sys attr_name changeAttrQuality attr_quality).1
          = attr.setDataToSafe (if changeAttrQuality then some attr_quality else none)
              sys.now) := by
  have hnone : dataElementType attr.data_type = none → attr.data = none := by
    intro h
    by_contra hne
    obtain ⟨d, hd⟩ := Option.ne_none_iff_exists'.mp hne
    exact absurd (h.symm.trans (attr.typed d hd).1) (by simp)
  rw [setDynAttrToSafeValue]
  by_cases hscalar : attr.data_format = Tango.scalar
  · have hcast : ¬ attr.IsMiscast := by
      intro h
      exact absurd (hscalar.symm.trans h.2.1) (by decide)
    rw [if_pos hscalar]
    cases hT : dataElementType attr.data_type with
    | none => simp [hcast, setDataToSafe_of_data_eq_none (hnone hT)]
    | some T =>
        obtain ⟨hfst, hsnd⟩ := setScalarDynAttrToSafeValue_spec sys attr_name
          changeAttrQuality attr_quality hscalar hT
        exact ⟨iff_of_false hsnd hcast, fun _ => hfst⟩
  rw [if_neg hscalar]
  by_cases hspectrum : attr.data_format = Tango.spectrum
  · rw [if_pos hspectrum, spectrumElementType]
    by_cases hstate : attr.data_type = devState
    · have hT : dataElementType attr.data_type = some .state := by
        rw [hstate]
        rfl
      obtain ⟨hfst, hsnd⟩ := setSpectrumDynAttrToSafeValue_boolean sys attr_name
          changeAttrQuality attr_quality hspectrum hT
      rw [if_pos hstate]
      refine ⟨hsnd.trans ⟨fun h => ⟨h, hspectrum, hstate⟩, fun h => h.1⟩, ?_⟩
      intro hcast
      have hdata : attr.data = none := by
        by_contra h
        exact hcast ⟨h, hspectrum, hstate⟩
      exact hfst.trans (setDataToSafe_of_data_eq_none hdata).symm
    · have hcast : ¬ attr.IsMiscast := fun h => hstate h.2.2
      rw [if_neg hstate]
      cases hT : dataElementType attr.data_type with
      | none => simp [hcast, setDataToSafe_of_data_eq_none (hnone hT)]
      | some T =>
          obtain ⟨hfst, hsnd⟩ := setSpectrumDynAttrToSafeValue_spec sys attr_name
            changeAttrQuality attr_quality hspectrum hT
          exact ⟨iff_of_false hsnd hcast, fun _ => hfst⟩
  · have hdata : attr.data = none := by
      by_contra hne
      obtain ⟨d, hd⟩ := Option.ne_none_iff_exists'.mp hne
      exact (format_of_data_eq_some hd).elim hscalar hspectrum
    have hcast : ¬ attr.IsMiscast := fun h => h.1 hdata
    rw [if_neg hspectrum]
    exact ⟨iff_of_false (by simp) hcast, fun _ => (setDataToSafe_of_data_eq_none hdata).symm⟩

end Attribute

namespace Attributes

def safe (attrs : Attributes) (names : List String) (quality : Option AttrQuality)
    (now : TimeVal) : Attributes :=
  fun name =>
    if name ∈ names then (attrs name).map (·.setDataToSafe quality now) else attrs name

def Miscast (attrs : Attributes) (name : String) : Prop :=
  ∃ attr, attrs name = some attr ∧ attr.IsMiscast

variable (attrs : Attributes) (names : List String) (quality : Option AttrQuality) (now : TimeVal)

@[simp]
theorem safe_nil : attrs.safe [] quality now = attrs := by
  funext name
  simp [safe]

theorem safe_safe (name : String) :
    (attrs.safe [name] quality now).safe names quality now
      = attrs.safe (name :: names) quality now := by
  funext other
  by_cases hname : other = name
  · subst hname
    by_cases hmem : other ∈ names <;> simp [safe, hmem, Function.comp_def]
  · simp [safe, hname]

theorem miscast_safe_iff (name : String) :
    (attrs.safe names quality now).Miscast name ↔ attrs.Miscast name := by
  rw [Miscast, Miscast, safe]
  split
  · simp [Attribute.isMiscast_setDataToSafe_iff]
  · exact Iff.rfl

end Attributes

section Loop

variable (sys : WriteSystem) (changeQualityFactor : Bool) (attr_quality : AttrQuality)

theorem setDynAttrToSafeValue_undefined_iff (attrs : Attributes) (attr_name : String) :
    (setDynAttrToSafeValue sys attrs attr_name changeQualityFactor attr_quality).2 = .undefined
      ↔ attrs.Miscast attr_name := by
  rw [setDynAttrToSafeValue, Attributes.Miscast]
  cases attrs attr_name with
  | none => simp
  | some attr =>
      simp [(attr.setDynAttrToSafeValue_spec sys attr_name changeQualityFactor attr_quality).1]

theorem setDynAttrToSafeValue_of_not_miscast {attrs : Attributes} {attr_name : String}
    (h : ¬ attrs.Miscast attr_name) :
    (setDynAttrToSafeValue sys attrs attr_name changeQualityFactor attr_quality).1
      = attrs.safe [attr_name] (if changeQualityFactor then some attr_quality else none)
          sys.now := by
  rw [setDynAttrToSafeValue]
  funext name
  cases hattr : attrs attr_name with
  | none =>
      by_cases hname : name = attr_name
      · simp [Attributes.safe, hname, hattr]
      · simp [Attributes.safe, hname]
  | some attr =>
      have hcast : ¬ attr.IsMiscast := fun hmiscast => h ⟨attr, hattr, hmiscast⟩
      have hset := (attr.setDynAttrToSafeValue_spec sys attr_name changeQualityFactor
        attr_quality).2 hcast
      by_cases hname : name = attr_name
      · simp [Attributes.safe, hname, hattr, hset]
      · simp [Attributes.safe, hname]

/-- The loop makes the attributes of the formulas safe, and has no defined behaviour when it comes
to a miscast one. -/
theorem setFormulasToSafeValue_spec (formulas : List (String × FormulaData))
    (attrs : Attributes) :
    (setFormulasToSafeValue sys changeQualityFactor attr_quality formulas attrs = none
        ↔ ∃ name ∈ formulas.map (·.1), attrs.Miscast name)
      ∧ ∀ status attrs',
        setFormulasToSafeValue sys changeQualityFactor attr_quality formulas attrs
          = some (status, attrs')
        → attrs' = attrs.safe (formulas.map (·.1))
            (if changeQualityFactor then some attr_quality else none) sys.now := by
  induction formulas generalizing attrs with
  | nil => simp [setFormulasToSafeValue, eq_comm]
  | cons item rest ih =>
      obtain ⟨attr_name, f⟩ := item
      have hundefined := setDynAttrToSafeValue_undefined_iff sys changeQualityFactor attr_quality
        attrs attr_name
      have hset := @setDynAttrToSafeValue_of_not_miscast sys changeQualityFactor attr_quality
        attrs attr_name
      rw [setFormulasToSafeValue]
      generalize setDynAttrToSafeValue sys attrs attr_name changeQualityFactor attr_quality
        = result at hundefined hset
      obtain ⟨attrs₁, outcome⟩ := result
      by_cases hcast : attrs.Miscast attr_name
      · obtain rfl : outcome = .undefined := hundefined.mpr hcast
        simp [hcast]
      · have hne : outcome ≠ .undefined := fun h => hcast (hundefined.mp h)
        obtain rfl : attrs₁ = _ := hset hcast
        obtain ⟨ihnone, ihsome⟩ := ih (attrs.safe [attr_name]
          (if changeQualityFactor then some attr_quality else none) sys.now)
        simp only [Attributes.miscast_safe_iff] at ihnone
        simp only [Attributes.safe_safe] at ihsome
        cases outcome with
        | undefined => exact absurd rfl hne
        | throws =>
            constructor
            · simp [ihnone, hcast]
            · intro status attrs' h
              obtain ⟨⟨status', attrs''⟩, hrest, heq⟩ := Option.map_eq_some_iff.mp h
              obtain ⟨rfl, rfl⟩ := Prod.mk.inj heq
              exact ihsome status' attrs'' hrest
        | ok =>
            constructor
            · simp [ihnone, hcast]
            · exact ihsome

end Loop

/-! ### The dependants of a proxy -/

/-- A variable of the formula is on the proxy, whatever the case of its name. -/
def FormulaData.DependsOn (f : FormulaData) (proxy_name : String) : Prop :=
  ∃ v ∈ f.vars, ∃ device_name, v.device_name = some device_name
    ∧ sameName device_name proxy_name

theorem FormulaData.dependsOn_of_hasProxyInFormulaVars {f : FormulaData} {proxy_name : String}
    (h : f.hasProxyInFormulaVars proxy_name) : f.DependsOn proxy_name := by
  rw [hasProxyInFormulaVars, Bool.and_eq_true, List.any_eq_true] at h
  obtain ⟨_, v, hv, hdevice⟩ := h
  exact ⟨v, hv, proxy_name, of_decide_eq_true hdevice, sameName_refl proxy_name⟩

/-- The dynamic attributes of the formulas on the proxy have their safe values, with the given
quality factor or their own, and those of the other formulas are unchanged. -/
def Marks (mgr : FormulaManager) (proxy_name : String) (quality : Option AttrQuality)
    (attrs : Attributes) (result : Option (Int × Attributes)) : Prop :=
  ∃ status attrs', result = some (status, attrs') ∧
    ∀ name f, mgr.findFormula name = some f →
      (f.DependsOn proxy_name → ∀ attr d, attrs name = some attr → attr.data = some d →
        ∃ attr' d', attrs' name = some attr' ∧ attr'.data = some d'
          ∧ d'.m_data.toValue = d.safeValue
          ∧ d'.m_data_quality = quality.getD d.m_data_quality)
      ∧ (¬ f.DependsOn proxy_name → attrs' name = attrs name)

namespace FormulaManager

variable {mgr : FormulaManager} {proxy_name : String}

/-- The names of the formulas that `GetFormulasLinkedToProxy` finds. -/
def linkedNames (mgr : FormulaManager) (proxy_name : String) : List String :=
  ((mgr.getFormulasLinkedToProxy proxy_name).getD []).map (·.1)

theorem mem_linkedNames_iff (name : String) :
    name ∈ mgr.linkedNames proxy_name
      ↔ ∃ f, mgr.findFormula name = some f ∧ f.hasProxyInFormulaVars proxy_name := by
  rw [linkedNames, getFormulasLinkedToProxy]
  split
  case isTrue hempty => simp [hempty, FormulaData.hasProxyInFormulaVars]
  case isFalse => simp [findFormula, Std.ExtTreeMap.mem_toList_iff_getElem?_eq_some]

end FormulaManager

section Marking

variable (sys : WriteSystem) (mgr : FormulaManager) (attrs : Attributes) (proxy_name : String)
  (changeQualityFactor : Bool) (attr_quality : AttrQuality)

theorem evaluateFormulasOnProxyDown_spec :
    (evaluateFormulasOnProxyDown sys mgr attrs proxy_name changeQualityFactor attr_quality = none
        ↔ ∃ name ∈ mgr.linkedNames proxy_name, attrs.Miscast name)
      ∧ ∀ status attrs',
        evaluateFormulasOnProxyDown sys mgr attrs proxy_name changeQualityFactor attr_quality
          = some (status, attrs')
        → attrs' = attrs.safe (mgr.linkedNames proxy_name)
            (if changeQualityFactor then some attr_quality else none) sys.now := by
  rw [evaluateFormulasOnProxyDown, FormulaManager.linkedNames]
  cases mgr.getFormulasLinkedToProxy proxy_name with
  | none => simp [eq_comm]
  | some formulas =>
      exact setFormulasToSafeValue_spec sys changeQualityFactor attr_quality formulas attrs

/-- What marking comes to, for the quality factor that is asked for and the one that is given. -/
theorem marks_evaluateFormulasOnProxyDown_iff (quality : Option AttrQuality) (code : Int → Int) :
    Marks mgr proxy_name quality attrs
        ((evaluateFormulasOnProxyDown sys mgr attrs proxy_name changeQualityFactor
          attr_quality).map fun result => (code result.1, result.2))
      ↔ ∀ name f attr d, mgr.findFormula name = some f → f.DependsOn proxy_name →
        attrs name = some attr → attr.data = some d →
        if f.hasProxyInFormulaVars proxy_name then
          ¬ attr.IsMiscast
            ∧ (if changeQualityFactor then some attr_quality else none).getD d.m_data_quality
              = quality.getD d.m_data_quality
        else d.m_data.toValue = d.safeValue
          ∧ d.m_data_quality = quality.getD d.m_data_quality := by
  obtain ⟨hnone, hsome⟩ := evaluateFormulasOnProxyDown_spec sys mgr attrs proxy_name
    changeQualityFactor attr_quality
  generalize (if changeQualityFactor then some attr_quality else none) = given at hsome ⊢
  constructor
  · rintro ⟨status, attrs', hresult, hmarks⟩ name f attr d hf hdepends hattr hdata
    obtain ⟨⟨status', attrs''⟩, heval, heq⟩ := Option.map_eq_some_iff.mp hresult
    obtain ⟨rfl, rfl⟩ := Prod.mk.inj heq
    obtain rfl : attrs'' = _ := hsome status' attrs'' heval
    obtain ⟨attr', d', hattr', hdata', hvalue, hquality⟩ :=
      (hmarks name f hf).1 hdepends attr d hattr hdata
    split
    case isTrue hproxy =>
      have hmem : name ∈ mgr.linkedNames proxy_name :=
        (FormulaManager.mem_linkedNames_iff name).mpr ⟨f, hf, hproxy⟩
      constructor
      · intro hcast
        rw [hnone.mpr ⟨name, hmem, attr, hattr, hcast⟩] at heval
        simp at heval
      · obtain rfl : attr' = attr.setDataToSafe given sys.now := by
          simpa [Attributes.safe, hmem, hattr, eq_comm] using hattr'
        obtain rfl : d' = d.setDataToSafe given sys.now := by
          simpa [Attribute.setDataToSafe, hdata, eq_comm] using hdata'
        exact hquality
    case isFalse hproxy =>
      have hmem : name ∉ mgr.linkedNames proxy_name := by
        rw [FormulaManager.mem_linkedNames_iff]
        rintro ⟨f', hf', hproxy'⟩
        obtain rfl : f = f' := Option.some.inj (hf.symm.trans hf')
        exact hproxy hproxy'
      obtain rfl : attr = attr' := by simpa [Attributes.safe, hmem, hattr] using hattr'
      obtain rfl : d = d' := Option.some.inj (hdata.symm.trans hdata')
      exact ⟨hvalue, hquality⟩
  · intro hcondition
    cases heval : evaluateFormulasOnProxyDown sys mgr attrs proxy_name changeQualityFactor
        attr_quality with
    | none =>
        obtain ⟨name, hmem, attr, hattr, hcast⟩ := hnone.mp heval
        obtain ⟨f, hf, hproxy⟩ := (FormulaManager.mem_linkedNames_iff name).mp hmem
        obtain ⟨d, hdata⟩ := Option.ne_none_iff_exists'.mp hcast.1
        have h := hcondition name f attr d hf (f.dependsOn_of_hasProxyInFormulaVars hproxy) hattr
          hdata
        rw [if_pos hproxy] at h
        exact absurd hcast h.1
    | some result =>
        obtain ⟨status, attrs'⟩ := result
        obtain rfl : attrs' = _ := hsome status attrs' heval
        refine ⟨code status, _, rfl, ?_⟩
        intro name f hf
        have hmem : name ∈ mgr.linkedNames proxy_name ↔ f.hasProxyInFormulaVars proxy_name := by
          rw [FormulaManager.mem_linkedNames_iff]
          simp [hf]
        constructor
        · intro hdepends attr d hattr hdata
          have h := hcondition name f attr d hf hdepends hattr hdata
          by_cases hproxy : f.hasProxyInFormulaVars proxy_name
          · rw [if_pos hproxy] at h
            refine ⟨attr.setDataToSafe given sys.now, d.setDataToSafe given sys.now, ?_, ?_, rfl, h.2⟩
            · simp [Attributes.safe, hmem, hproxy, hattr]
            · simp [Attribute.setDataToSafe, hdata]
          · rw [if_neg hproxy] at h
            refine ⟨attr, d, ?_, hdata, h⟩
            simp [Attributes.safe, hmem, hproxy, hattr]
        · intro hdepends
          have hproxy : ¬ f.hasProxyInFormulaVars proxy_name :=
            fun h => hdepends (f.dependsOn_of_hasProxyInFormulaVars h)
          simp [Attributes.safe, hmem, hproxy]

/-- **Which proxies mark their dependants.** A proxy that goes hard offline marks them exactly when
every one with data has its safe value and an invalid quality factor already and is not found by
the spelling of the proxy. One that goes soft offline marks them exactly when none of those that
are found is a spectrum of states, and the others have their safe values already. -/
theorem marks_processProxyRunStatusInfo_iff :
    (Marks mgr proxy_name (some .invalid) attrs
        (processProxyRunStatusInfo sys mgr attrs proxy_name .ePROXY_HARD_OFFLINE)
      ↔ ∀ name f attr d, mgr.findFormula name = some f → f.DependsOn proxy_name →
        attrs name = some attr → attr.data = some d →
        f.hasProxyInFormulaVars proxy_name = false ∧ d.m_data.toValue = d.safeValue
          ∧ d.m_data_quality = .invalid)
    ∧ (Marks mgr proxy_name none attrs
        (processProxyRunStatusInfo sys mgr attrs proxy_name .ePROXY_SOFT_OFFLINE)
      ↔ ∀ name f attr d, mgr.findFormula name = some f → f.DependsOn proxy_name →
        attrs name = some attr → attr.data = some d →
        if f.hasProxyInFormulaVars proxy_name then
          ¬ (attr.data_format = Tango.spectrum ∧ attr.data_type = devState)
        else d.m_data.toValue = d.safeValue) := by
  constructor
  · refine (marks_evaluateFormulasOnProxyDown_iff sys mgr attrs proxy_name true .valid
      (some .invalid) fun code => if code < 0 then 1 else 0).trans ?_
    refine forall₄_congr fun name f attr d => forall₄_congr fun hf hdepends hattr hdata => ?_
    by_cases hproxy : f.hasProxyInFormulaVars proxy_name <;> simp [hproxy]
  · refine (marks_evaluateFormulasOnProxyDown_iff sys mgr attrs proxy_name false .valid none
      fun code => if code < 0 then 1 else 0).trans ?_
    refine forall₄_congr fun name f attr d => forall₄_congr fun hf hdepends hattr hdata => ?_
    by_cases hproxy : f.hasProxyInFormulaVars proxy_name <;>
      simp [hproxy, Attribute.IsMiscast, hdata]

end Marking

/-- A boolean attribute whose formula reads an attribute of a proxy. -/
def readyFormula : FormulaData where
  m_formula := "res := pointing;"
  m_symbols := (∅ : FormulaSymbols).insert "pointing" ⟨0, "pointing", .eATTR_VALUE, some "mid/spfc/0"⟩
  m_evaluation_modes := [.change]

def readyManager : FormulaManager where
  m_proxyManager := ⟨∅⟩
  m_attrFormulaMap := (∅ : Std.ExtTreeMap String FormulaData).insert "ready" readyFormula
  m_eventAttrsMap := []

def readyAttributes : Attributes := fun name =>
  if name = "ready" then
    some {
      data_type := devBoolean
      data_format := Tango.scalar
      is_writ_associated := false
      enum_labels := []
      data := some ⟨.boolean, .scalar true, false, .valid, ⟨0, 0⟩, true⟩
      typed := by
        rintro d ⟨⟩
        exact ⟨rfl, rfl⟩ }
  else none

/-- The attribute stays valid. -/
theorem not_marks_ready :
    ¬ Marks readyManager "mid/spfc/0" (some .invalid) readyAttributes
      (processProxyRunStatusInfo ⟨⟨7, 0⟩, fun _ => true⟩ readyManager readyAttributes "mid/spfc/0"
        .ePROXY_HARD_OFFLINE) := by
  rintro ⟨status, attrs', hresult, hmarks⟩
  have hdepends : readyFormula.DependsOn "mid/spfc/0" :=
    ⟨⟨0, "pointing", .eATTR_VALUE, some "mid/spfc/0"⟩, List.mem_singleton.mpr rfl, "mid/spfc/0",
      rfl, sameName_refl "mid/spfc/0"⟩
  obtain ⟨attr', d', hattr', hdata', _, hquality⟩ :=
    (hmarks "ready" readyFormula rfl).1 hdepends _ _ rfl rfl
  have hvalid : (processProxyRunStatusInfo ⟨⟨7, 0⟩, fun _ => true⟩ readyManager readyAttributes
      "mid/spfc/0" .ePROXY_HARD_OFFLINE).map (fun result =>
        ((result.2 "ready").bind (·.data)).map (·.m_data_quality)) = some (some .valid) := by
    decide +kernel
  simp [hresult, hattr', hdata', hquality] at hvalid

end DshLmc
