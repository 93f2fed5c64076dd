import DshLmc.Utils.TangoProxyHelper

/-!
# Threads that subscribe to the events of a proxy

`SubscribeToEvent` takes the lock of its helper twice and calls the proxy in between. A thread in it
holds a pointer to an entry of the registry and then the id of the subscription. The other methods
hold the lock all the time.
-/

namespace DshLmc

structure ProxySubscription where
  id : Int
  attr_name : String
  event_type : EventType
deriving DecidableEq

/-- Where a thread is in `SubscribeToEvent`. -/
inductive SubscribeToEvent where
  | outside
  | checked (attr_name : String) (event_type : EventType) (event_sub_data_ptr : Nat)
  | subscribed (attr_name : String) (event_type : EventType) (event_sub_data_ptr : Nat)
      (subscriptionId : Int)
deriving DecidableEq

/-- A helper, what its proxy serves, and the threads. Neither an id nor an object is the same as
one before it. -/
structure ProxyThreads where
  helper : TangoProxyHelper
  live : List ProxySubscription := []
  next_id : Int := 0
  next_address : Nat := 0
  threads : Nat → SubscribeToEvent := fun _ => .outside

/-- A step of a thread. The proxy succeeds or throws, and answers for the attribute or not. -/
inductive ProxyStep where
  | addEventSubscription (attr_name : String) (event_type : EventType)
      (attr_info : Option AttributeInfoEx)
  | removeEventSubscription (attr_name : String) (event_type : EventType) (succeeds : Bool)
  | unsubscribeEvent (attr_name : String) (event_type : EventType) (succeeds : Bool)
  | findSubscription (thread : Nat) (attr_name : String) (event_type : EventType)
  | subscribe_event (thread : Nat) (succeeds : Bool)
  | setSubscribed (thread : Nat) (attr_info : Option AttributeInfoEx)

namespace ProxyThreads

def initial (proxy_name : String) : ProxyThreads where
  helper := TangoProxyHelper.new proxy_name

def moveTo (s : ProxyThreads) (thread : Nat) (position : SubscribeToEvent) : ProxyThreads :=
  { s with threads := fun other => if other = thread then position else s.threads other }

/-- `m_proxy->unsubscribe_event`, for an entry that is subscribed. -/
def liveWithout (s : ProxyThreads) (data : EvtSubscriptionData) (succeeds : Bool) :
    List ProxySubscription :=
  if data.is_subscribed && succeeds then
    s.live.filter fun sub => sub.id ≠ data.subscription_id
  else s.live

/-- `AddEventSubscription`, on a new object. -/
def addEventSubscription (s : ProxyThreads) (attr_name : String) (event_type : EventType)
    (attr_info : Option AttributeInfoEx) : ProxyThreads :=
  { s with
    helper := s.helper.addEventSubscription attr_name event_type s.next_address attr_info
    next_address := s.next_address + 1 }

def removeEventSubscription (s : ProxyThreads) (attr_name : String) (event_type : EventType)
    (succeeds : Bool) : ProxyThreads :=
  match s.helper.find_event_subscription attr_name event_type with
  | none => s
  | some ptr =>
      { s with
        helper := s.helper.removeEventSubscription attr_name event_type
        live := s.liveWithout ptr.obj succeeds }

def unsubscribeEvent (s : ProxyThreads) (attr_name : String) (event_type : EventType)
    (succeeds : Bool) : ProxyThreads :=
  match s.helper.find_event_subscription attr_name event_type with
  | none => s
  | some ptr =>
      match TangoProxyHelper.unsubscribe_event ptr.obj succeeds with
      | none => s
      | some data =>
          { s with
            helper := s.helper.modifyAt ptr.address fun _ => data
            live := s.liveWithout ptr.obj succeeds }

/-- The first step of `SubscribeToEvent`: the entry is found and is not subscribed. -/
def findSubscription (s : ProxyThreads) (thread : Nat) (attr_name : String)
    (event_type : EventType) : ProxyThreads :=
  match s.threads thread with
  | .outside =>
      match s.helper.find_event_subscription attr_name event_type with
      | none => s
      | some ptr =>
          if ptr.obj.is_subscribed then s
          else s.moveTo thread (.checked attr_name event_type ptr.address)
  | _ => s

/-- The second step: the proxy subscribes, or throws and the thread returns. -/
def subscribe_event (s : ProxyThreads) (thread : Nat) (succeeds : Bool) : ProxyThreads :=
  match s.threads thread with
  | .checked attr_name event_type ptr =>
      if succeeds then
        { s.moveTo thread (.subscribed attr_name event_type ptr s.next_id) with
          live := s.live ++ [⟨s.next_id, attr_name, event_type⟩]
          next_id := s.next_id + 1 }
      else s.moveTo thread .outside
  | _ => s

/-- The third step: the id goes into the object, which may have left the registry. -/
def setSubscribed (s : ProxyThreads) (thread : Nat) (attr_info : Option AttributeInfoEx) :
    ProxyThreads :=
  match s.threads thread with
  | .subscribed _ _ ptr subscriptionId =>
      { s.moveTo thread .outside with
        helper := s.helper.modifyAt ptr fun data =>
          { data.setSubscribed subscriptionId with
            event_attr_info := data.event_attr_info.or attr_info } }
  | _ => s

def step (s : ProxyThreads) : ProxyStep → ProxyThreads
  | .addEventSubscription attr_name event_type attr_info =>
      s.addEventSubscription attr_name event_type attr_info
  | .removeEventSubscription attr_name event_type succeeds =>
      s.removeEventSubscription attr_name event_type succeeds
  | .unsubscribeEvent attr_name event_type succeeds =>
      s.unsubscribeEvent attr_name event_type succeeds
  | .findSubscription thread attr_name event_type =>
      s.findSubscription thread attr_name event_type
  | .subscribe_event thread succeeds => s.subscribe_event thread succeeds
  | .setSubscribed thread attr_info => s.setSubscribed thread attr_info

end ProxyThreads

end DshLmc
