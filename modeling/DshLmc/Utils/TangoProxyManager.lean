import DshLmc.Utils.TangoProxyHelper

/-!
# The proxy manager

`TangoProxyManager` has a helper for each proxy that was registered. The names of proxies are keys
of a map, so here they count with their case.
-/

namespace DshLmc

/-- What lies outside the device while a call runs: the clock, the proxies that can be made, the
attributes that answer, and the memory that a new subscription gets. -/
structure TangoSystem where
  now : Rat
  connect : String → Option TangoProxyHelper.MonitorReport
  get_attribute_config : String → String → Option AttributeInfoEx
  make_shared : String → String → EventType → Nat

structure TangoProxyManager where
  m_proxyHelperMap : Std.ExtTreeMap String TangoProxyHelper

namespace TangoProxyManager

variable (sys : TangoSystem) (mgr : TangoProxyManager)

def findProxyHelper (proxy_name : String) : Option TangoProxyHelper :=
  mgr.m_proxyHelperMap[proxy_name]?

/-- The change of a registered helper in place. -/
def setHelper (proxy_name : String) (helper : TangoProxyHelper) : TangoProxyManager :=
  { mgr with m_proxyHelperMap := mgr.m_proxyHelperMap.insert proxy_name helper }

def registerProxy (proxy_name : String) (timeout : Int) : Option TangoProxyManager :=
  match mgr.findProxyHelper proxy_name with
  | some _ => some mgr
  | none =>
      let proxy_helper := TangoProxyHelper.new proxy_name
      let proxy_helper := (proxy_helper.setTimeout timeout sys.now).getD proxy_helper
      (proxy_helper.initProxy sys.now (sys.connect proxy_name)).map fun proxy_helper =>
        { mgr with m_proxyHelperMap := mgr.m_proxyHelperMap.insertIfNew proxy_name proxy_helper }

def unregisterProxy (proxy_name : String) : TangoProxyManager :=
  { mgr with m_proxyHelperMap := mgr.m_proxyHelperMap.erase proxy_name }

def registerEvtSubscriptions (proxy_name attr_name : String) (event_types : List EventType) :
    Option TangoProxyManager :=
  (mgr.findProxyHelper proxy_name).map fun proxy_helper =>
    mgr.setHelper proxy_name <| event_types.foldl (fun proxy_helper event_type =>
      proxy_helper.addEventSubscription attr_name event_type
        (sys.make_shared proxy_name attr_name event_type)
        (sys.get_attribute_config proxy_name attr_name)) proxy_helper

def unregisterEvtSubscriptions (proxy_name attr_name : String) (event_types : List EventType) :
    Option TangoProxyManager :=
  (mgr.findProxyHelper proxy_name).map fun proxy_helper =>
    mgr.setHelper proxy_name <| event_types.foldl (fun proxy_helper event_type =>
      proxy_helper.removeEventSubscription attr_name event_type) proxy_helper

def findEvtSubscription (proxy_name attr_name : String) (event_type : EventType) :
    Option EvtSubscriptionDataPtr := do
  let proxy_helper ← mgr.findProxyHelper proxy_name
  proxy_helper.find_event_subscription attr_name event_type

end TangoProxyManager

end DshLmc
