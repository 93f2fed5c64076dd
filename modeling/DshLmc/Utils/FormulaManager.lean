import DshLmc.Utils.FormulaData
import DshLmc.Utils.TangoProxyManager

/-!
# The formula manager

`FormulaManager` has the formulas of the attributes of the device and knows which of them an event
is for. To register a formula it registers the proxies and the events of its variables.
-/

namespace DshLmc

/-- `std::map` with the order of subscriptions: an entry is found by what its key is equal to. -/
abbrev EventAttrsMap := List (EvtSubscriptionData × List String)

namespace EventAttrsMap

def find? (map : EventAttrsMap) (evt_sub : EvtSubscriptionData) : Option (List String) :=
  (List.find? (fun entry => entry.1.same evt_sub) map).map (·.2)

/-- `FillEventAttrMap`. -/
def fill (map : EventAttrsMap) (attr_name : String) (evt_sub : EvtSubscriptionData) :
    EventAttrsMap :=
  match map with
  | [] => [(evt_sub, [attr_name])]
  | (key, attr_names) :: rest =>
      if key.same evt_sub then
        (key, if attr_name ∈ attr_names then attr_names else attr_names ++ [attr_name]) :: rest
      else (key, attr_names) :: fill rest attr_name evt_sub

end EventAttrsMap

structure FormulaManager where
  m_proxyManager : TangoProxyManager
  m_attrFormulaMap : Std.ExtTreeMap String FormulaData
  m_eventAttrsMap : EventAttrsMap

structure RegisteredEvent where
  proxy_name : String
  attr_name : String
  evt_types : List EventType

/-- The variables of `RegisterFormula` that the loop over the symbols changes. -/
structure RegisterLoop where
  proxies : TangoProxyManager
  registered_proxies : List String := []
  registered_events : List RegisteredEvent := []
  formula_attr_events : List RegisteredEvent := []

namespace FormulaManager

variable (sys : TangoSystem)

def findFormula (mgr : FormulaManager) (attr_name : String) : Option FormulaData :=
  mgr.m_attrFormulaMap[attr_name]?

/-- The proxy of a variable, unless it is registered. An error is the `break` with status -1. -/
def registerVarProxy (proxy_name : String) (loop : RegisterLoop) :
    Except RegisterLoop RegisterLoop :=
  match loop.proxies.findProxyHelper proxy_name with
  | some _ => .ok loop
  | none =>
      match loop.proxies.registerProxy sys proxy_name 20 with
      | none => .error loop
      | some proxies =>
          .ok { loop with
            proxies := proxies
            registered_proxies := loop.registered_proxies ++ [proxy_name] }

/-- The events of a variable. The lookup has the name of the formula attribute. -/
def registerVarEvents (attr_name proxy_name proxy_attr_name : String) (evt_types : List EventType)
    (loop : RegisterLoop) : Except RegisterLoop RegisterLoop :=
  let events_to_be_registered := evt_types.filter fun event_type =>
    (loop.proxies.findEvtSubscription proxy_name attr_name event_type).isNone
  match loop.proxies.registerEvtSubscriptions sys proxy_name proxy_attr_name
      events_to_be_registered with
  | none => .error loop
  | some proxies =>
      .ok { loop with
        proxies := proxies
        registered_events := loop.registered_events ++
          [⟨proxy_name, proxy_attr_name, events_to_be_registered⟩] }

/-- A round of the loop for a proxy attribute. -/
def registerVar (attr_name proxy_name proxy_attr_name : String) (evt_types : List EventType)
    (loop : RegisterLoop) : Except RegisterLoop RegisterLoop :=
  (registerVarProxy sys proxy_name
    { loop with
      formula_attr_events := loop.formula_attr_events ++
        [⟨proxy_name, proxy_attr_name, evt_types⟩] }).bind
    (registerVarEvents sys attr_name proxy_name proxy_attr_name evt_types)

def registerVars (attr_name : String) (evt_types : List EventType) :
    List FormulaVar → RegisterLoop → Except RegisterLoop RegisterLoop
  | [], loop => .ok loop
  | v :: rest, loop =>
      match v.device_name with
      | none => registerVars attr_name evt_types rest loop
      | some proxy_name =>
          (registerVar sys attr_name proxy_name v.attr_name evt_types loop).bind
            (registerVars attr_name evt_types rest)

theorem registerVars_internal {attr_name : String} {evt_types : List EventType} {v : FormulaVar}
    (h : v.device_name = none) (rest : List FormulaVar) (loop : RegisterLoop) :
    registerVars sys attr_name evt_types (v :: rest) loop
      = registerVars sys attr_name evt_types rest loop := by
  simp only [registerVars, h]

theorem registerVars_proxy {attr_name proxy_name : String} {evt_types : List EventType}
    {v : FormulaVar} (h : v.device_name = some proxy_name) (rest : List FormulaVar)
    (loop : RegisterLoop) :
    registerVars sys attr_name evt_types (v :: rest) loop
      = (registerVar sys attr_name proxy_name v.attr_name evt_types loop).bind
          (registerVars sys attr_name evt_types rest) := by
  simp only [registerVars, h]

/-- What is undone after an error: the events first and then the proxies. -/
def unregister (loop : RegisterLoop) : TangoProxyManager :=
  let proxies := loop.registered_events.foldl (fun proxies event =>
    (proxies.unregisterEvtSubscriptions event.proxy_name event.attr_name event.evt_types).getD
      proxies) loop.proxies
  loop.registered_proxies.foldl TangoProxyManager.unregisterProxy proxies

def registerFormula (mgr : FormulaManager) (attr_name : String)
    (formula_data : Option FormulaData) : Int × FormulaManager :=
  match formula_data with
  | none => (-1, mgr)
  | some formula_data =>
      match mgr.findFormula attr_name with
      | some _ => (0, mgr)
      | none =>
          match registerVars sys attr_name formula_data.m_evaluation_modes formula_data.vars
              { proxies := mgr.m_proxyManager } with
          | .error loop => (-1, { mgr with m_proxyManager := unregister loop })
          | .ok loop =>
              (0, { m_proxyManager := loop.proxies
                    m_attrFormulaMap := mgr.m_attrFormulaMap.insertIfNew attr_name
                      { formula_data with m_attrName := attr_name }
                    m_eventAttrsMap := loop.formula_attr_events.foldl (fun map event =>
                      event.evt_types.foldl (fun map evt_type => map.fill attr_name
                        ⟨event.proxy_name, event.attr_name, evt_type, -1, false, [], none⟩) map)
                      mgr.m_eventAttrsMap })

def getFormulasLinkedToEvent (mgr : FormulaManager) (evt_sub : EvtSubscriptionData) :
    Option (List (String × FormulaData)) := do
  let attr_name_list ← mgr.m_eventAttrsMap.find? evt_sub
  attr_name_list.mapM fun attr_name => do
    let formula_data ← mgr.findFormula attr_name
    return (attr_name, formula_data)

/-- The loop that sets the value of an event in formulas. A formula that fails is skipped. -/
def setEventValues (evt_sub : EvtSubscriptionData) (event_data : EventData) :
    List (String × FormulaData) → VarData → Int × VarData
  | [], vars => (0, vars)
  | (_, formula_data) :: rest, vars =>
      match formula_data.setEventValue vars evt_sub event_data with
      | none => (1, (setEventValues evt_sub event_data rest vars).2)
      | some vars => setEventValues evt_sub event_data rest vars

def updateEventValueInFormulas (mgr : FormulaManager) (evt_sub : EvtSubscriptionData)
    (event_data : EventData) (vars : VarData) : Int × VarData :=
  match mgr.getFormulasLinkedToEvent evt_sub with
  | none => (-1, vars)
  | some formulas => setEventValues evt_sub event_data formulas vars

def getFormulasLinkedToProxy (mgr : FormulaManager) (proxy_name : String) :
    Option (List (String × FormulaData)) :=
  if proxy_name = "" then none
  else some (mgr.m_attrFormulaMap.toList.filter fun item =>
    item.2.hasProxyInFormulaVars proxy_name)

end FormulaManager

/-- The `SetEventValue` loop of `LMCDevice::EvaluateFormulasOnEvent`. -/
def evaluateFormulasOnEvent (mgr : FormulaManager) (evt_sub : EvtSubscriptionData)
    (event_data : EventData) (vars : VarData) : VarData :=
  (FormulaManager.setEventValues evt_sub event_data
    ((mgr.getFormulasLinkedToEvent evt_sub).getD []) vars).2

end DshLmc
