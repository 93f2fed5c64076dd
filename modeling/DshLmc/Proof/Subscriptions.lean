import DshLmc.Library.KeyedList
import DshLmc.Utils.TangoProxyHelper

/-!
# The subscriptions of a proxy

The subscriptions of a helper are a list with keys: the attribute, the proxy and the event.
-/

namespace DshLmc

def EvtSubscriptionDataPtr.key (ptr : EvtSubscriptionDataPtr) :
    List Char × List Char × EventType := ptr.obj.key

namespace TangoProxyHelper

def keyFor (helper : TangoProxyHelper) (attr_name : String) (event_type : EventType) :
    List Char × List Char × EventType :=
  (lowerChars attr_name, lowerChars helper.m_proxy_name, event_type)

theorem isFor_iff {helper : TangoProxyHelper} {attr_name : String} {event_type : EventType}
    {ptr : EvtSubscriptionDataPtr} :
    helper.isFor attr_name event_type ptr = true ↔ ptr.key = helper.keyFor attr_name event_type :=
  EvtSubscriptionData.same_iff_key

theorem find_event_subscription_isSome_iff {helper : TangoProxyHelper} {attr_name : String}
    {event_type : EventType} :
    (helper.find_event_subscription attr_name event_type).isSome = true
      ↔ helper.keyFor attr_name event_type
        ∈ helper.m_evtSubscriptions.map EvtSubscriptionDataPtr.key := by
  rw [find_event_subscription, List.find?_isSome, List.mem_map]
  simp only [isFor_iff]

theorem addEventSubscription_eq (helper : TangoProxyHelper) (attr_name : String)
    (event_type : EventType) (address : Nat) (attr_info : Option AttributeInfoEx) :
    helper.addEventSubscription attr_name event_type address attr_info
      = { helper with
          m_evtSubscriptions := addNew EvtSubscriptionDataPtr.key helper.m_evtSubscriptions
            ⟨address, ⟨helper.m_proxy_name, attr_name, event_type, -1, false, [], attr_info⟩⟩ } := by
  rw [addEventSubscription, addNew]
  by_cases h : helper.keyFor attr_name event_type
      ∈ helper.m_evtSubscriptions.map EvtSubscriptionDataPtr.key
  · have hfound := find_event_subscription_isSome_iff.mpr h
    rw [if_pos (by exact h)]
    cases hfind : helper.find_event_subscription attr_name event_type with
    | none => simp [hfind] at hfound
    | some ptr => rfl
  · have hnone := mt find_event_subscription_isSome_iff.mp h
    rw [if_neg (by exact h), Option.not_isSome_iff_eq_none.mp hnone]

theorem removeEventSubscription_eq (helper : TangoProxyHelper) (attr_name : String)
    (event_type : EventType) :
    helper.removeEventSubscription attr_name event_type
      = { helper with
          m_evtSubscriptions := removeKey EvtSubscriptionDataPtr.key helper.m_evtSubscriptions
            (helper.keyFor attr_name event_type) } := by
  have hpred : helper.isFor attr_name event_type
      = fun ptr => decide (ptr.key = helper.keyFor attr_name event_type) := by
    funext ptr
    rw [Bool.eq_iff_iff, isFor_iff, decide_eq_true_iff]
  rw [removeEventSubscription, removeKey, hpred]

end TangoProxyHelper

end DshLmc
