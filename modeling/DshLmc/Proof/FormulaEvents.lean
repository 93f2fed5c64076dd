import DshLmc.Library.Fold
import DshLmc.Library.Run
import DshLmc.Utils.FormulaManager

/-!
# Events and the variables of formulas

The event map lists, for each event, the formulas that have a variable of it and are evaluated on
it, because `RegisterFormula` adds a formula and its events together. An event then goes to the
first variable of each of these formulas, and a variable after the first keeps what it has.
-/

namespace DshLmc

namespace EventAttrsMap

def Lists (map : EventAttrsMap) (evt_sub : EvtSubscriptionData) (attr_name : String) : Prop :=
  ∃ attr_names, map.find? evt_sub = some attr_names ∧ attr_name ∈ attr_names

@[simp]
theorem not_lists_nil (evt_sub : EvtSubscriptionData) (attr_name : String) :
    ¬ Lists [] evt_sub attr_name := by
  simp [Lists, find?]

theorem lists_cons_iff (key evt_sub : EvtSubscriptionData) (attr_names : List String)
    (rest : EventAttrsMap) (attr_name : String) :
    Lists ((key, attr_names) :: rest) evt_sub attr_name
      ↔ if key.same evt_sub then attr_name ∈ attr_names else Lists rest evt_sub attr_name := by
  by_cases h : key.same evt_sub <;> simp [Lists, find?, h]

theorem lists_fill_iff (map : EventAttrsMap) (attr_name : String) (k : EvtSubscriptionData)
    (evt_sub : EvtSubscriptionData) (name : String) :
    (map.fill attr_name k).Lists evt_sub name
      ↔ (name = attr_name ∧ k.same evt_sub = true) ∨ map.Lists evt_sub name := by
  induction map with
  | nil =>
      rw [fill, lists_cons_iff]
      by_cases h : k.same evt_sub <;> simp [h]
  | cons entry rest ih =>
      obtain ⟨key, attr_names⟩ := entry
      rw [fill, lists_cons_iff]
      by_cases hkey : key.same k
      · rw [if_pos hkey, lists_cons_iff, EvtSubscriptionData.same_congr hkey evt_sub]
        by_cases h : k.same evt_sub
        · by_cases hmem : attr_name ∈ attr_names
          · simp only [h, hmem, if_true, and_true]
            exact ⟨Or.inr, fun hname => hname.elim (fun hname => hname ▸ hmem) id⟩
          · simp only [h, hmem, if_true, if_false, List.mem_append, List.mem_singleton]
            tauto
        · simp [h]
      · rw [if_neg hkey, lists_cons_iff, ih]
        by_cases h : key.same evt_sub
        · have hother : ¬ k.same evt_sub = true := by
            intro hsame
            rw [EvtSubscriptionData.same_comm, ← EvtSubscriptionData.same_congr hsame,
              EvtSubscriptionData.same_comm] at h
            exact hkey h
          simp [h, hother]
        · simp [h]

theorem lists_foldl_fill_iff (attr_name : String) (keys : List EvtSubscriptionData)
    (map : EventAttrsMap) (evt_sub : EvtSubscriptionData) (name : String) :
    (keys.foldl (fun map key => map.fill attr_name key) map).Lists evt_sub name
      ↔ (name = attr_name ∧ ∃ key ∈ keys, key.same evt_sub = true) ∨ map.Lists evt_sub name := by
  induction keys generalizing map with
  | nil => simp
  | cons key rest ih =>
      rw [List.foldl_cons, ih, lists_fill_iff]
      simp only [List.mem_cons, exists_eq_or_imp, and_or_left, or_assoc, or_left_comm]

end EventAttrsMap

/-! ### What a registration adds -/

namespace FormulaManager

def varEvents (evt_types : List EventType) (vars : List FormulaVar) : List RegisteredEvent :=
  vars.filterMap fun v => v.device_name.map fun proxy_name => ⟨proxy_name, v.attr_name, evt_types⟩

theorem formula_attr_events_registerVarProxy {sys : TangoSystem} {proxy_name : String}
    {loop loop' : RegisterLoop} (h : registerVarProxy sys proxy_name loop = .ok loop') :
    loop'.formula_attr_events = loop.formula_attr_events := by
  rw [registerVarProxy] at h
  split at h
  · cases h
    rfl
  · split at h
    · cases h
    · cases h
      rfl

theorem formula_attr_events_registerVarEvents {sys : TangoSystem} {attr_name proxy_name : String}
    {proxy_attr_name : String} {evt_types : List EventType} {loop loop' : RegisterLoop}
    (h : registerVarEvents sys attr_name proxy_name proxy_attr_name evt_types loop = .ok loop') :
    loop'.formula_attr_events = loop.formula_attr_events := by
  rw [registerVarEvents] at h
  split at h
  · cases h
  · cases h
    rfl

theorem formula_attr_events_registerVar {sys : TangoSystem} {attr_name proxy_name : String}
    {proxy_attr_name : String} {evt_types : List EventType} {loop loop' : RegisterLoop}
    (h : registerVar sys attr_name proxy_name proxy_attr_name evt_types loop = .ok loop') :
    loop'.formula_attr_events
      = loop.formula_attr_events ++ [⟨proxy_name, proxy_attr_name, evt_types⟩] := by
  rw [registerVar] at h
  cases hproxy : registerVarProxy sys proxy_name
      { loop with
        formula_attr_events := loop.formula_attr_events ++
          [⟨proxy_name, proxy_attr_name, evt_types⟩] } with
  | error loop₁ =>
      rw [hproxy] at h
      cases h
  | ok loop₁ =>
      rw [hproxy] at h
      rw [formula_attr_events_registerVarEvents h, formula_attr_events_registerVarProxy hproxy]

theorem formula_attr_events_registerVars {sys : TangoSystem} {attr_name : String}
    {evt_types : List EventType} {vars : List FormulaVar} {loop loop' : RegisterLoop}
    (h : registerVars sys attr_name evt_types vars loop = .ok loop') :
    loop'.formula_attr_events = loop.formula_attr_events ++ varEvents evt_types vars := by
  induction vars generalizing loop with
  | nil =>
      cases h
      simp [varEvents]
  | cons v rest ih =>
      cases hdevice : v.device_name with
      | none =>
          rw [registerVars_internal sys hdevice] at h
          rw [ih h]
          simp [varEvents, hdevice]
      | some proxy_name =>
          rw [registerVars_proxy sys hdevice] at h
          cases hvar : registerVar sys attr_name proxy_name v.attr_name evt_types loop with
          | error loop₁ => simp [hvar, Except.bind] at h
          | ok loop₁ =>
              rw [hvar] at h
              rw [ih h, formula_attr_events_registerVar hvar]
              simp [varEvents, hdevice]

def keys (event : RegisteredEvent) : List EvtSubscriptionData :=
  event.evt_types.map fun evt_type =>
    ⟨event.proxy_name, event.attr_name, evt_type, -1, false, [], none⟩

/-- The formula has a variable of the event and is evaluated on it. -/
def IsFor (formula_data : FormulaData) (evt_sub : EvtSubscriptionData) : Prop :=
  evt_sub.event_type ∈ formula_data.m_evaluation_modes
    ∧ ∃ v ∈ formula_data.vars, v.binds evt_sub = true

theorem exists_key_same_iff {formula_data : FormulaData} {evt_sub : EvtSubscriptionData} :
    (∃ key ∈ (varEvents formula_data.m_evaluation_modes formula_data.vars).flatMap keys,
      key.same evt_sub = true) ↔ IsFor formula_data evt_sub := by
  constructor
  · rintro ⟨key, hkey, hsame⟩
    obtain ⟨event, hevent, hkey⟩ := List.mem_flatMap.mp hkey
    obtain ⟨v, hv, hevent⟩ := List.mem_filterMap.mp hevent
    obtain ⟨proxy_name, hdevice, rfl⟩ := Option.map_eq_some_iff.mp hevent
    obtain ⟨evt_type, htype, rfl⟩ := List.mem_map.mp hkey
    obtain ⟨hattr, hproxy, rfl⟩ := EvtSubscriptionData.same_iff.mp hsame
    refine ⟨htype, v, hv, ?_⟩
    rw [FormulaVar.binds, hdevice]
    exact Bool.and_eq_true_iff.mpr ⟨hproxy, hattr⟩
  · rintro ⟨htype, v, hv, hbinds⟩
    cases hdevice : v.device_name with
    | none => simp [FormulaVar.binds, hdevice] at hbinds
    | some proxy_name =>
        rw [FormulaVar.binds, hdevice] at hbinds
        obtain ⟨hproxy, hattr⟩ := Bool.and_eq_true_iff.mp hbinds
        refine ⟨⟨proxy_name, v.attr_name, evt_sub.event_type, -1, false, [], none⟩, ?_,
          EvtSubscriptionData.same_iff.mpr ⟨hattr, hproxy, rfl⟩⟩
        refine List.mem_flatMap.mpr
          ⟨⟨proxy_name, v.attr_name, formula_data.m_evaluation_modes⟩, ?_, ?_⟩
        · exact List.mem_filterMap.mpr ⟨v, hv, by rw [hdevice]; rfl⟩
        · exact List.mem_map.mpr ⟨_, htype, rfl⟩

/-- The event map lists the formulas that an event is for. -/
def ListsFormulas (mgr : FormulaManager) : Prop :=
  ∀ evt_sub attr_name, mgr.m_eventAttrsMap.Lists evt_sub attr_name
    ↔ ∃ formula_data, mgr.findFormula attr_name = some formula_data ∧ IsFor formula_data evt_sub

/-- A registration leaves the formulas alone or adds one, with its events. -/
theorem registerFormula_cases (sys : TangoSystem) (mgr : FormulaManager) (attr_name : String)
    (formula_data : Option FormulaData) :
    ((registerFormula sys mgr attr_name formula_data).2.m_attrFormulaMap = mgr.m_attrFormulaMap
      ∧ (registerFormula sys mgr attr_name formula_data).2.m_eventAttrsMap = mgr.m_eventAttrsMap)
    ∨ ∃ data : FormulaData, mgr.findFormula attr_name = none
      ∧ (registerFormula sys mgr attr_name formula_data).2.m_attrFormulaMap
        = mgr.m_attrFormulaMap.insertIfNew attr_name { data with m_attrName := attr_name }
      ∧ (registerFormula sys mgr attr_name formula_data).2.m_eventAttrsMap
        = ((varEvents data.m_evaluation_modes data.vars).flatMap keys).foldl
          (fun map key => map.fill attr_name key) mgr.m_eventAttrsMap := by
  cases formula_data with
  | none => exact Or.inl ⟨rfl, rfl⟩
  | some data =>
      rw [registerFormula]
      cases hfind : mgr.findFormula attr_name with
      | some _ => exact Or.inl ⟨rfl, rfl⟩
      | none =>
          cases hvars : registerVars sys attr_name data.m_evaluation_modes data.vars
              { proxies := mgr.m_proxyManager } with
          | error loop => exact Or.inl ⟨rfl, rfl⟩
          | ok loop =>
              refine Or.inr ⟨data, rfl, rfl, ?_⟩
              have hevents := formula_attr_events_registerVars hvars
              rw [List.nil_append] at hevents
              rw [List.foldl_flatMap]
              simp only [keys, List.foldl_map, hevents]

theorem ListsFormulas.registerFormula {mgr : FormulaManager} (h : ListsFormulas mgr)
    (sys : TangoSystem) (attr_name : String) (formula_data : Option FormulaData) :
    ListsFormulas (registerFormula sys mgr attr_name formula_data).2 := by
  intro evt_sub name
  obtain ⟨hmap, hevents⟩ | ⟨data, hnew, hmap, hevents⟩ :=
    registerFormula_cases sys mgr attr_name formula_data
  · rw [hevents, findFormula, hmap]
    exact h evt_sub name
  · have hnotin : attr_name ∉ mgr.m_attrFormulaMap := by
      simpa [findFormula] using hnew
    rw [hevents, EventAttrsMap.lists_foldl_fill_iff, exists_key_same_iff, findFormula, hmap,
      Std.ExtTreeMap.getElem?_insertIfNew, h evt_sub name]
    by_cases hname : attr_name = name
    · subst hname
      simp [hnotin, hnew, IsFor, FormulaData.vars]
    · simp [hname, Ne.symm hname, findFormula]

/-- What happens to a manager: a registration, or any change that the rest of the device makes to
the proxies. -/
inductive Call where
  | register (sys : TangoSystem) (attr_name : String) (formula_data : Option FormulaData)
  | proxies (proxies : TangoProxyManager)

def call (mgr : FormulaManager) : Call → FormulaManager
  | .register sys attr_name formula_data => (registerFormula sys mgr attr_name formula_data).2
  | .proxies proxies => { mgr with m_proxyManager := proxies }

def initial (proxies : TangoProxyManager) : FormulaManager := ⟨proxies, ∅, []⟩

/-- **What the event map lists.** -/
theorem listsFormulas_run (proxies : TangoProxyManager) (history : List Call) :
    ListsFormulas (run call (initial proxies) history) := by
  refine run_preserves ?_ history ?_
  · intro mgr c h
    cases c with
    | register sys attr_name formula_data => exact h.registerFormula sys attr_name formula_data
    | proxies proxies => exact h
  · intro evt_sub attr_name
    simp [initial, findFormula]

theorem exists_mapM_findFormula {mgr : FormulaManager} {attr_names : List String}
    (h : ∀ attr_name ∈ attr_names, ∃ data, mgr.findFormula attr_name = some data) :
    ∃ items, attr_names.mapM (fun attr_name => do
        let formula_data ← mgr.findFormula attr_name
        return (attr_name, formula_data)) = some items
      ∧ ∀ data, (∃ attr_name, (attr_name, data) ∈ items)
        ↔ ∃ attr_name ∈ attr_names, mgr.findFormula attr_name = some data := by
  induction attr_names with
  | nil => exact ⟨[], rfl, by simp⟩
  | cons attr_name rest ih =>
      obtain ⟨data, hdata⟩ := h attr_name List.mem_cons_self
      obtain ⟨items, hitems, hmem⟩ := ih fun name hname => h name (List.mem_cons_of_mem _ hname)
      refine ⟨(attr_name, data) :: items, ?_, ?_⟩
      · rw [List.mapM_cons, hitems]
        simp [hdata]
      · intro data'
        simp only [List.mem_cons, exists_or, hmem, exists_eq_or_imp, Prod.mk.injEq, hdata,
          Option.some.injEq]
        simp [eq_comm]

theorem ListsFormulas.getFormulasLinkedToEvent {mgr : FormulaManager} (h : ListsFormulas mgr)
    (evt_sub : EvtSubscriptionData) (data : FormulaData) :
    (∃ attr_name, (attr_name, data) ∈ (mgr.getFormulasLinkedToEvent evt_sub).getD [])
      ↔ (∃ attr_name, mgr.findFormula attr_name = some data) ∧ IsFor data evt_sub := by
  rw [FormulaManager.getFormulasLinkedToEvent]
  cases hfind : mgr.m_eventAttrsMap.find? evt_sub with
  | none =>
      have hnone : ∀ attr_name, ¬ mgr.m_eventAttrsMap.Lists evt_sub attr_name := by
        simp [EventAttrsMap.Lists, hfind]
      constructor
      · simp
      · rintro ⟨⟨attr_name, hdata⟩, hfor⟩
        exact absurd ((h evt_sub attr_name).mpr ⟨data, hdata, hfor⟩) (hnone attr_name)
  | some attr_names =>
      have hlists : ∀ attr_name, mgr.m_eventAttrsMap.Lists evt_sub attr_name
          ↔ attr_name ∈ attr_names := by
        simp [EventAttrsMap.Lists, hfind]
      have hfound : ∀ attr_name ∈ attr_names, ∃ data, mgr.findFormula attr_name = some data := by
        intro attr_name hname
        obtain ⟨data, hdata, _⟩ := (h evt_sub attr_name).mp ((hlists attr_name).mpr hname)
        exact ⟨data, hdata⟩
      obtain ⟨items, hitems, hmem⟩ := exists_mapM_findFormula hfound
      rw [Option.bind_eq_bind, Option.bind_some, hitems, Option.getD_some, hmem]
      constructor
      · rintro ⟨attr_name, hname, hdata⟩
        obtain ⟨data', hdata', hfor⟩ := (h evt_sub attr_name).mp ((hlists attr_name).mpr hname)
        obtain rfl : data' = data := Option.some.inj (hdata'.symm.trans hdata)
        exact ⟨⟨attr_name, hdata⟩, hfor⟩
      · rintro ⟨⟨attr_name, hdata⟩, hfor⟩
        exact ⟨attr_name, (hlists attr_name).mp ((h evt_sub attr_name).mpr ⟨data, hdata, hfor⟩),
          hdata⟩

/-- What becomes of the data of a variable that an event goes to. -/
def received (da : Option DeviceAttribute) (data : Option AttrData) : Option AttrData :=
  (da.bind fun da => data.bind fun data => data.setData da).or data

theorem received_received (da : Option DeviceAttribute) (data : Option AttrData) :
    received da (received da data) = received da data := by
  cases da with
  | none => rfl
  | some da =>
      cases data with
      | none => rfl
      | some data =>
          cases hset : data.setData da with
          | none => simp [received, hset]
          | some new => simp [received, hset, AttrData.setData_setData hset]

def GoesTo (evt_sub : EvtSubscriptionData) (address : Nat) (item : String × FormulaData) : Prop :=
  ∃ v, item.2.vars.find? (·.binds evt_sub) = some v ∧ v.address = address

theorem setEventValues_snd (evt_sub : EvtSubscriptionData) (event_data : EventData)
    (formulas : List (String × FormulaData)) (vars : VarData) :
    (setEventValues evt_sub event_data formulas vars).2
      = formulas.foldl (fun vars item =>
          (item.2.setEventValue vars evt_sub event_data).getD vars) vars := by
  induction formulas generalizing vars with
  | nil => rfl
  | cons item rest ih =>
      rw [setEventValues, List.foldl_cons]
      cases hset : item.2.setEventValue vars evt_sub event_data with
      | none => exact ih vars
      | some vars' => exact ih vars'

theorem setAttrValue_apply (v : FormulaVar) (vars : VarData) (da : Option DeviceAttribute)
    (address : Nat) :
    ((v.setAttrValue vars da).getD vars) address
      = if v.address = address then received da (vars address) else vars address := by
  rw [FormulaVar.setAttrValue]
  cases da with
  | none => simp [received]
  | some da =>
      cases hdata : vars v.address with
      | none =>
          by_cases haddress : v.address = address
          · subst haddress
            simp [received, hdata]
          · simp [haddress]
      | some data =>
          by_cases haddress : v.address = address
          · subst haddress
            cases hset : data.setData da <;> simp [received, hdata, hset]
          · cases hset : data.setData da <;> simp [haddress, Ne.symm haddress, hset]

open Classical in
theorem setEventValue_apply (evt_sub : EvtSubscriptionData) (event_data : EventData)
    (item : String × FormulaData) (vars : VarData) (address : Nat) :
    ((item.2.setEventValue vars evt_sub event_data).getD vars) address
      = if GoesTo evt_sub address item then received event_data.attr_value (vars address)
        else vars address := by
  rw [FormulaData.setEventValue]
  cases hfind : item.2.vars.find? (·.binds evt_sub) with
  | none => simp [GoesTo, hfind]
  | some v =>
      rw [Option.bind_eq_bind, Option.bind_some, setAttrValue_apply]
      simp [GoesTo, hfind]

open Classical in
theorem setEventValues_apply (evt_sub : EvtSubscriptionData) (event_data : EventData)
    (formulas : List (String × FormulaData)) (vars : VarData) (address : Nat) :
    (setEventValues evt_sub event_data formulas vars).2 address
      = if ∃ item ∈ formulas, GoesTo evt_sub address item then
          received event_data.attr_value (vars address)
        else vars address := by
  rw [setEventValues_snd]
  exact foldl_effect (fun _ => True) (fun vars => vars address)
    (received event_data.attr_value) (received_received _) (fun _ _ _ => trivial)
    (fun vars item _ => setEventValue_apply evt_sub event_data item vars address) trivial formulas

/-- A formula that is registered and evaluated on events of the type. -/
def Evaluated (mgr : FormulaManager) (evt_sub : EvtSubscriptionData) (data : FormulaData) : Prop :=
  (∃ attr_name, mgr.findFormula attr_name = some data)
    ∧ evt_sub.event_type ∈ data.m_evaluation_modes

def IsBound (mgr : FormulaManager) (evt_sub : EvtSubscriptionData) (v : FormulaVar) : Prop :=
  ∃ data, Evaluated mgr evt_sub data ∧ v ∈ data.vars ∧ v.binds evt_sub = true

/-- The first variable of its formula, by name, that the event is for. -/
def IsFirst (mgr : FormulaManager) (evt_sub : EvtSubscriptionData) (v : FormulaVar) : Prop :=
  ∃ data, Evaluated mgr evt_sub data ∧ data.vars.find? (·.binds evt_sub) = some v

/-- The variable has data, and the value of the event can be extracted into them. -/
def CanReceive (event_data : EventData) (vars : VarData) (v : FormulaVar) : Prop :=
  ∃ da data new, event_data.attr_value = some da ∧ vars v.address = some data
    ∧ data.setData da = some new

/-- The variable holds the value, the quality factor and the timestamp of the event. -/
def Holds (event_data : EventData) (vars : VarData) (v : FormulaVar) : Prop :=
  ∃ da data, event_data.attr_value = some da ∧ vars v.address = some data ∧ data.Carries da

/-- The event reaches all variables that it is for, and no others. -/
def Reaches (mgr : FormulaManager) (evt_sub : EvtSubscriptionData) (event_data : EventData)
    (vars vars' : VarData) : Prop :=
  (∀ v, IsBound mgr evt_sub v → CanReceive event_data vars v → Holds event_data vars' v)
    ∧ ∀ address, (∀ v, IsBound mgr evt_sub v → v.address ≠ address) → vars' address = vars address

theorem IsFirst.isBound {mgr : FormulaManager} {evt_sub : EvtSubscriptionData} {v : FormulaVar}
    (h : IsFirst mgr evt_sub v) : IsBound mgr evt_sub v := by
  obtain ⟨data, hdata, hfind⟩ := h
  exact ⟨data, hdata, List.mem_of_find?_eq_some hfind, by simpa using List.find?_some hfind⟩

open Classical in
theorem ListsFormulas.updateEventValueInFormulas {mgr : FormulaManager} (h : ListsFormulas mgr)
    (evt_sub : EvtSubscriptionData) (event_data : EventData) (vars : VarData) (address : Nat) :
    (mgr.updateEventValueInFormulas evt_sub event_data vars).2 address
      = if ∃ v, IsFirst mgr evt_sub v ∧ v.address = address then
          received event_data.attr_value (vars address)
        else vars address := by
  have hloop : (mgr.updateEventValueInFormulas evt_sub event_data vars).2
      = (setEventValues evt_sub event_data ((mgr.getFormulasLinkedToEvent evt_sub).getD [])
          vars).2 := by
    rw [FormulaManager.updateEventValueInFormulas]
    cases mgr.getFormulasLinkedToEvent evt_sub <;> rfl
  have hfirst : (∃ item ∈ (mgr.getFormulasLinkedToEvent evt_sub).getD [],
      GoesTo evt_sub address item) ↔ ∃ v, IsFirst mgr evt_sub v ∧ v.address = address := by
    constructor
    · rintro ⟨⟨attr_name, data⟩, hitem, v, hfind, haddress⟩
      obtain ⟨hdata, htype, _⟩ := (h.getFormulasLinkedToEvent evt_sub data).mp ⟨attr_name, hitem⟩
      exact ⟨v, ⟨data, ⟨hdata, htype⟩, hfind⟩, haddress⟩
    · rintro ⟨v, ⟨data, ⟨hdata, htype⟩, hfind⟩, haddress⟩
      obtain ⟨attr_name, hitem⟩ := (h.getFormulasLinkedToEvent evt_sub data).mpr
        ⟨hdata, htype, v, List.mem_of_find?_eq_some hfind, by simpa using List.find?_some hfind⟩
      exact ⟨(attr_name, data), hitem, v, hfind, haddress⟩
  rw [hloop, setEventValues_apply]
  exact if_congr hfirst rfl rfl

theorem holds_received {event_data : EventData} {vars vars' : VarData} {v : FormulaVar}
    (hvars : vars' v.address = received event_data.attr_value (vars v.address))
    (h : CanReceive event_data vars v) : Holds event_data vars' v := by
  obtain ⟨da, data, new, hda, hdata, hset⟩ := h
  refine ⟨da, new, hda, ?_, AttrData.carries_of_setData hset⟩
  rw [hvars, hda, hdata]
  simp [received, hset]

/-- **Which events reach their variables.** In every history of a manager an event reaches all
variables that it is for, and no others, exactly when each of them that can receive it is the first
of its formula, by name, or is shared with a formula where it is, or holds the same data already. -/
theorem reaches_iff_first (proxies : TangoProxyManager) (history : List Call)
    (evt_sub : EvtSubscriptionData) (event_data : EventData) (vars : VarData) :
    let mgr := run call (initial proxies) history
    evaluateFormulasOnEvent mgr evt_sub event_data vars
        = (mgr.updateEventValueInFormulas evt_sub event_data vars).2
      ∧ (Reaches mgr evt_sub event_data vars
          (mgr.updateEventValueInFormulas evt_sub event_data vars).2
        ↔ ∀ v, IsBound mgr evt_sub v → CanReceive event_data vars v →
          (∃ u, IsFirst mgr evt_sub u ∧ u.address = v.address) ∨ Holds event_data vars v) := by
  intro mgr
  have hlists : ListsFormulas mgr := listsFormulas_run proxies history
  refine ⟨?_, ?_, ?_⟩
  · rw [evaluateFormulasOnEvent, FormulaManager.updateEventValueInFormulas]
    cases mgr.getFormulasLinkedToEvent evt_sub <;> rfl
  · rintro ⟨hall, _⟩ v hbound hreceive
    by_cases hfirst : ∃ u, IsFirst mgr evt_sub u ∧ u.address = v.address
    · exact Or.inl hfirst
    · have hholds := hall v hbound hreceive
      rw [Holds, hlists.updateEventValueInFormulas, if_neg hfirst] at hholds
      exact Or.inr hholds
  · intro hcondition
    constructor
    · intro v hbound hreceive
      by_cases hfirst : ∃ u, IsFirst mgr evt_sub u ∧ u.address = v.address
      · refine holds_received ?_ hreceive
        rw [hlists.updateEventValueInFormulas, if_pos hfirst]
      · rw [Holds, hlists.updateEventValueInFormulas, if_neg hfirst]
        exact (hcondition v hbound hreceive).resolve_left hfirst
    · intro address hother
      rw [hlists.updateEventValueInFormulas, if_neg]
      rintro ⟨v, hfirst, rfl⟩
      exact hother v hfirst.isBound rfl

/-- A formula with the value and the quality factor of one attribute. -/
def pointingFormula : FormulaData where
  m_formula := "res := (quality == 0) ? pointing : 0;"
  m_symbols := (∅ : FormulaSymbols).insert "pointing" ⟨0, "pointing", .eATTR_VALUE, some "mid/spfc/0"⟩
    |>.insert "quality" ⟨1, "pointing", .eATTR_QUALITY_FACTOR, some "mid/spfc/0"⟩
  m_evaluation_modes := [.change]

def pointingSystem : TangoSystem where
  now := 0
  connect _ := some .noResponse
  get_attribute_config _ _ := none
  make_shared _ _ _ := 0

def pointingManager : FormulaManager :=
  run call (initial ⟨∅⟩) [.register pointingSystem "ready" (some pointingFormula)]

def pointingSubscription : EvtSubscriptionData :=
  ⟨"mid/spfc/0", "pointing", .change, -1, false, [], none⟩

def pointingEvent : EventData :=
  ⟨some ⟨some (.scalar .boolean true), .alarm, ⟨7, 0⟩⟩⟩

def pointingVars : VarData := fun _ => some ⟨.boolean, .scalar false, false, .valid, ⟨0, 0⟩, true⟩

/-- The variable of the quality factor comes second and misses the event. -/
theorem not_reaches_quality :
    ¬ Reaches pointingManager pointingSubscription pointingEvent pointingVars
      (pointingManager.updateEventValueInFormulas pointingSubscription pointingEvent
        pointingVars).2 := by
  rintro ⟨hall, _⟩
  have hbound : IsBound pointingManager pointingSubscription
      ⟨1, "pointing", .eATTR_QUALITY_FACTOR, some "mid/spfc/0"⟩ := by
    refine ⟨{ pointingFormula with m_attrName := "ready" }, ⟨⟨"ready", rfl⟩, ?_⟩, ?_, by decide⟩
    · exact List.mem_singleton.mpr rfl
    · exact List.mem_cons_of_mem _ (List.mem_singleton.mpr rfl)
  obtain ⟨da, data, hda, hdata, hcarries⟩ := hall _ hbound ⟨_, _, _, rfl, rfl, rfl⟩
  have hmissed : (pointingManager.updateEventValueInFormulas pointingSubscription pointingEvent
      pointingVars).2 1 = pointingVars 1 := by rfl
  obtain rfl : _ = data := Option.some.inj (hmissed.symm.trans hdata)
  obtain rfl : _ = da := Option.some.inj hda
  exact absurd hcarries.2.2 (by decide)

end FormulaManager

end DshLmc
