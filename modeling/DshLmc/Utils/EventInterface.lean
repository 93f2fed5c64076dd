import DshLmc.Utils.TangoProxyManager

/-!
# Events through the proxy manager

The calls of the manager about events find the helper of a proxy and let it answer. Some results are
flags and some are codes, and both are tested with `< 0`: a flag is 0 or 1 in such a test, and a code
that is returned as a flag is true unless it is 0.
-/

namespace DshLmc

def asInt (flag : Bool) : Int := if flag then 1 else 0

def asBool (n : Int) : Bool := n != 0

/-- What lies outside the device while a call about events runs: what a proxy answers when an event is
subscribed to, an identifier or an exception, and the commands of the device itself. -/
structure EventSystem extends TangoSystem where
  subscribe_event : String → String → EventType → Option Int
  get_cmd_by_name : String → Bool

namespace EvtSubscriptionData

def addEvtHandlers (data : EvtSubscriptionData) (handlers : List String)
    (execution_delay priority : Int) : EvtSubscriptionData :=
  handlers.foldl (fun data handler =>
    if data.event_handlers.any fun evt_handler_data => evt_handler_data.name == handler then data
    else { data with
      event_handlers := data.event_handlers ++ [⟨handler, execution_delay, priority⟩] }) data

end EvtSubscriptionData

namespace TangoProxyHelper

variable (sys : EventSystem) (helper : TangoProxyHelper)

/-- A change of the object that `find_event_subscription` returns. -/
def changeSubscription (attr_name : String) (event_type : EventType)
    (change : EvtSubscriptionData → EvtSubscriptionData) : TangoProxyHelper :=
  { helper with
    m_evtSubscriptions := helper.m_evtSubscriptions.modify
      (helper.m_evtSubscriptions.findIdx (helper.isFor attr_name event_type))
      fun ptr => { ptr with obj := change ptr.obj } }

/-- What `SubscribeToEvent` stores when the proxy has accepted. -/
def subscribedData (attr_name : String) (subscriptionId : Int) (data : EvtSubscriptionData) :
    EvtSubscriptionData :=
  { data.setSubscribed subscriptionId with
    event_attr_info :=
      data.event_attr_info.or (sys.get_attribute_config helper.m_proxy_name attr_name) }

/-- `SubscribeToEvent`. The last argument says whether the callback is not null. -/
def subscribeToEvent (attr_name : String) (event_type : EventType) (event_cb : Bool) :
    Int × TangoProxyHelper :=
  if !event_cb then (-1, helper)
  else match helper.find_event_subscription attr_name event_type with
    | none => (-1, helper)
    | some event_sub_data_ptr =>
        if event_sub_data_ptr.obj.is_subscribed then (0, helper)
        else match sys.subscribe_event helper.m_proxy_name attr_name event_type with
          | none => (-1, helper)
          | some subscriptionId =>
              (0, helper.changeSubscription attr_name event_type
                (helper.subscribedData sys attr_name subscriptionId))

/-- `SubscribeToEvents`. An event that fails is skipped. -/
def subscribeToEvents (event_cb : Bool) : Int × TangoProxyHelper :=
  if !event_cb then (-1, helper)
  else
    (0, helper.m_evtSubscriptions.foldl (fun helper ptr =>
      (helper.subscribeToEvent sys ptr.obj.attr_name ptr.obj.event_type event_cb).2) helper)

def isSubscribedToEvent (attr_name : String) (event_type : EventType) : Bool :=
  match helper.find_event_subscription attr_name event_type with
  | none => false
  | some item => item.obj.is_subscribed

def hasCommand (cmd_name : String) : Bool := sys.get_cmd_by_name cmd_name

def addEventHandlers (attr_name : String) (event_type : EventType) (event_handlers : List String)
    (execution_delay priority : Int) : Int × TangoProxyHelper :=
  match helper.find_event_subscription attr_name event_type with
  | none => (-1, helper)
  | some _ =>
      if event_handlers.any fun cmd_handler_name => asInt (hasCommand sys cmd_handler_name) < 0 then
        (-1, helper)
      else
        (0, helper.changeSubscription attr_name event_type fun item =>
          item.addEvtHandlers event_handlers execution_delay priority)

end TangoProxyHelper

namespace TangoProxyManager

variable (sys : EventSystem) (mgr : TangoProxyManager)

/-- `IsSubscribedToEvent`, which returns its codes as a flag. -/
def isSubscribedToEvent (proxy_name attr_name : String) (event_type : EventType) : Bool :=
  match mgr.findProxyHelper proxy_name with
  | none => asBool (-1)
  | some proxy_helper =>
      if asInt (proxy_helper.isSubscribedToEvent attr_name event_type) < 0 then asBool (-1)
      else asBool 0

def subscribeProxyToEvents (proxy_name : String) (event_cb : Bool) : Int × TangoProxyManager :=
  if event_cb then (-1, mgr)
  else match mgr.findProxyHelper proxy_name with
    | none => (-1, mgr)
    | some proxy_helper =>
        let result := proxy_helper.subscribeToEvents sys event_cb
        (result.1, mgr.setHelper proxy_name result.2)

def registerEvtHandlers (proxy_name attr_name : String) (event_type : EventType)
    (evt_handlers : List String) (execution_delay priority : Int) : Int × TangoProxyManager :=
  match mgr.findProxyHelper proxy_name with
  | none => (-1, mgr)
  | some proxy_helper =>
      let result := proxy_helper.addEventHandlers sys attr_name event_type evt_handlers
        execution_delay priority
      (if result.1 < 0 then -1 else 0, mgr.setHelper proxy_name result.2)

/-- One pass of the loop of `InitAndSubscribeProxies`. -/
def initAndSubscribe (event_cb : Bool) (proxy_name : String) (proxy_helper : TangoProxyHelper) :
    TangoProxyHelper :=
  match proxy_helper.initProxy sys.now (sys.connect proxy_name) with
  | none => proxy_helper
  | some proxy_helper => (proxy_helper.subscribeToEvents sys event_cb).2

def initAndSubscribeProxies (event_cb : Bool) : TangoProxyManager :=
  { mgr with m_proxyHelperMap := mgr.m_proxyHelperMap.map (initAndSubscribe sys event_cb) }

def monitorProxy (proxy_name : String) (report : TangoProxyHelper.MonitorReport) :
    TangoProxyManager :=
  match mgr.findProxyHelper proxy_name with
  | none => mgr
  | some proxy_helper => mgr.setHelper proxy_name (proxy_helper.monitor sys.now report)

inductive ManagerCall where
  | registerProxy (proxy_name : String) (timeout : Int)
  | unregisterProxy (proxy_name : String)
  | monitorProxy (proxy_name : String) (report : TangoProxyHelper.MonitorReport)
  | initAndSubscribeProxies (event_cb : Bool)
  | subscribeProxyToEvents (proxy_name : String) (event_cb : Bool)
  | registerEvtSubscriptions (proxy_name attr_name : String) (event_types : List EventType)
  | unregisterEvtSubscriptions (proxy_name attr_name : String) (event_types : List EventType)
  | registerEvtHandlers (proxy_name attr_name : String) (event_type : EventType)
      (evt_handlers : List String) (execution_delay priority : Int)

/-- A call, with what it finds outside. -/
def call (mgr : TangoProxyManager) : EventSystem × ManagerCall → TangoProxyManager
  | (sys, .registerProxy proxy_name timeout) =>
      (mgr.registerProxy sys.toTangoSystem proxy_name timeout).getD mgr
  | (_, .unregisterProxy proxy_name) => mgr.unregisterProxy proxy_name
  | (sys, .monitorProxy proxy_name report) => mgr.monitorProxy sys proxy_name report
  | (sys, .initAndSubscribeProxies event_cb) => mgr.initAndSubscribeProxies sys event_cb
  | (sys, .subscribeProxyToEvents proxy_name event_cb) =>
      (mgr.subscribeProxyToEvents sys proxy_name event_cb).2
  | (sys, .registerEvtSubscriptions proxy_name attr_name event_types) =>
      (mgr.registerEvtSubscriptions sys.toTangoSystem proxy_name attr_name event_types).getD mgr
  | (_, .unregisterEvtSubscriptions proxy_name attr_name event_types) =>
      (mgr.unregisterEvtSubscriptions proxy_name attr_name event_types).getD mgr
  | (sys, .registerEvtHandlers proxy_name attr_name event_type evt_handlers execution_delay
      priority) =>
      (mgr.registerEvtHandlers sys proxy_name attr_name event_type evt_handlers execution_delay
        priority).2

def new : TangoProxyManager := { m_proxyHelperMap := ∅ }

end TangoProxyManager

end DshLmc
