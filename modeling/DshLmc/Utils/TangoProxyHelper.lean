import DshLmc.Utils.EvtSubscriptionData
import Mathlib.Algebra.Order.Ring.Rat

/-!
# Proxy helpers

A `TangoProxyHelper` watches one proxy. It knows whether the last ping found it online, since when,
and which events of it the device wants. Instants and durations are in seconds, and so is the clock.
-/

namespace DshLmc

/-- `yat::Timeout`. -/
structure ActionTimeout where
  duration : Int
  is_enabled : Bool
  start : Rat
deriving DecidableEq

namespace ActionTimeout

def enabled (timeout : ActionTimeout) : Bool := timeout.is_enabled

def expired (timeout : ActionTimeout) (now : Rat) : Bool :=
  timeout.is_enabled && decide (timeout.duration ≤ now - timeout.start)

def disable (timeout : ActionTimeout) : ActionTimeout := { timeout with is_enabled := false }

def restart (timeout : ActionTimeout) (now : Rat) : ActionTimeout := { timeout with start := now }

/-- `enable(true)`. -/
def enable (timeout : ActionTimeout) (now : Rat) : ActionTimeout :=
  { timeout with is_enabled := true, start := now }

end ActionTimeout

/-- A shared pointer to a subscription: the object and its address. -/
structure EvtSubscriptionDataPtr where
  address : Nat
  obj : EvtSubscriptionData
deriving DecidableEq

inductive ProxyRunState where
  | ePROXY_ONLINE
  | ePROXY_SOFT_OFFLINE
  | ePROXY_HARD_OFFLINE
deriving DecidableEq

structure TangoProxyHelper where
  m_proxy_name : String
  m_is_initialized : Bool := false
  m_state : UInt32 := 13
  m_status : String := ""
  m_ping_time : Int := -1
  m_ping_time_avg : Rat := -1
  m_ping_time_buffer : List Int := []
  m_max_buffer_size : Int := 10
  m_is_online : Bool := false
  m_timer : Option Rat := none
  m_action_timeout : Int := 10
  m_downtimeActionTimeout : Option ActionTimeout := none
  m_evtSubscriptions : List EvtSubscriptionDataPtr := []
deriving DecidableEq

namespace TangoProxyHelper

def new (proxy_name : String) : TangoProxyHelper := { m_proxy_name := proxy_name }

/-- `SetTimeout`. A timeout that runs is not replaced. -/
def setTimeout (helper : TangoProxyHelper) (timeout : Int) (now : Rat) :
    Option TangoProxyHelper :=
  if timeout ≤ 0 then none
  else if !helper.m_is_online && helper.m_downtimeActionTimeout.any (·.enabled) then none
  else
    some { helper with
      m_downtimeActionTimeout := some (ActionTimeout.mk timeout false now).disable
      m_action_timeout := timeout }

def computePingTimeMean (buffer : List Int) : Rat :=
  if buffer = [] then 0 else (buffer.map fun ping => (ping : Rat)).sum / buffer.length

/-- `SetOnline_i`. A buffer that is empty stays so in `pop_back`. -/
def setOnline_i (helper : TangoProxyHelper) (state : UInt32) (status : String) (ping_time : Int)
    (now : Rat) : TangoProxyHelper :=
  let popped :=
    if helper.m_ping_time_buffer.length ≥ helper.m_max_buffer_size then
      helper.m_ping_time_buffer.dropLast
    else helper.m_ping_time_buffer
  { helper with
    m_is_online := true
    m_timer := some (helper.m_timer.getD now)
    m_downtimeActionTimeout := helper.m_downtimeActionTimeout.map (·.disable)
    m_status := status
    m_state := state
    m_ping_time := ping_time
    m_ping_time_buffer := ping_time :: popped
    m_ping_time_avg := computePingTimeMean (ping_time :: popped) }

def setOffline_i (helper : TangoProxyHelper) (now : Rat) : TangoProxyHelper :=
  { helper with
    m_timer :=
      match helper.m_timer with
      | none => some now
      | some start => if helper.m_is_online then some now else some start
    m_downtimeActionTimeout :=
      match helper.m_downtimeActionTimeout with
      | none => some ⟨helper.m_action_timeout, true, now⟩
      | some timeout =>
          if !timeout.enabled || helper.m_is_online then some ((timeout.enable now).restart now)
          else some timeout
    m_is_online := false
    m_ping_time_buffer := [] }

/-- `GetProxyRunStatus`. It dereferences the timeout of a proxy that is offline. -/
def getProxyRunStatus (helper : TangoProxyHelper) (now : Rat) : Option ProxyRunState :=
  if helper.m_is_online then some .ePROXY_ONLINE
  else
    match helper.m_downtimeActionTimeout with
    | none => none
    | some timeout =>
        if timeout.enabled && timeout.expired now then some .ePROXY_HARD_OFFLINE
        else some .ePROXY_SOFT_OFFLINE

/-- What a ping of the proxy comes to. -/
inductive MonitorReport where
  | offline
  | noResponse
  | failed
  | online (state : UInt32) (status : String) (ping_time : Int)

/-- `Monitor`, on a proxy that was made. -/
def monitor (helper : TangoProxyHelper) (now : Rat) : MonitorReport → TangoProxyHelper
  | .offline => helper.setOffline_i now
  | .noResponse => helper
  | .failed => helper
  | .online state status ping_time => helper.setOnline_i state status ping_time now

/-- `InitProxy`. Without a report the proxy cannot be made. -/
def initProxy (helper : TangoProxyHelper) (now : Rat) (report : Option MonitorReport) :
    Option TangoProxyHelper :=
  if helper.m_is_initialized then some helper
  else report.map fun report => { helper with m_is_initialized := true }.monitor now report

/-- The comparison with a subscription of this proxy. -/
def isFor (helper : TangoProxyHelper) (attr_name : String) (event_type : EventType)
    (ptr : EvtSubscriptionDataPtr) : Bool :=
  ptr.obj.same ⟨helper.m_proxy_name, attr_name, event_type, -1, false, [], none⟩

def find_event_subscription (helper : TangoProxyHelper) (attr_name : String)
    (event_type : EventType) : Option EvtSubscriptionDataPtr :=
  helper.m_evtSubscriptions.find? (helper.isFor attr_name event_type)

/-- `AddEventSubscription`, with the address of the new object and what the proxy says about the
attribute, if it answers. -/
def addEventSubscription (helper : TangoProxyHelper) (attr_name : String) (event_type : EventType)
    (address : Nat) (attr_info : Option AttributeInfoEx) : TangoProxyHelper :=
  match helper.find_event_subscription attr_name event_type with
  | some _ => helper
  | none =>
      { helper with
        m_evtSubscriptions := helper.m_evtSubscriptions ++
          [⟨address, ⟨helper.m_proxy_name, attr_name, event_type, -1, false, [], attr_info⟩⟩] }

/-- `unsubscribe_event` on the object: -1 when the proxy throws. -/
def unsubscribe_event (data : EvtSubscriptionData) (succeeds : Bool) :
    Option EvtSubscriptionData :=
  if !data.is_subscribed then some data
  else if succeeds then some data.setUnsubscribed
  else none

/-- `RemoveEventSubscription`. The entry goes even if unsubscribing failed. -/
def removeEventSubscription (helper : TangoProxyHelper) (attr_name : String)
    (event_type : EventType) : TangoProxyHelper :=
  { helper with
    m_evtSubscriptions := helper.m_evtSubscriptions.eraseP (helper.isFor attr_name event_type) }

/-- A change of the object at an address. -/
def modifyAt (helper : TangoProxyHelper) (address : Nat)
    (change : EvtSubscriptionData → EvtSubscriptionData) : TangoProxyHelper :=
  { helper with
    m_evtSubscriptions := helper.m_evtSubscriptions.map fun ptr =>
      if ptr.address = address then { ptr with obj := change ptr.obj } else ptr }

end TangoProxyHelper

end DshLmc
