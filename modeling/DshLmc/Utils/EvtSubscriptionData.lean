import DshLmc.Utils.Tango

/-!
# Event subscriptions

What is known of one event of one attribute of a proxy. Two subscriptions are equal when they are
for the same event, and names of devices, attributes and events are compared without case.
-/

namespace DshLmc

/-- `tolower` on every character, in the locale of C. -/
def lowerChars (s : String) : List Char := s.toList.map Char.toLower

/-- `stricmp(a, b) == 0`. -/
def sameName (a b : String) : Bool := lowerChars a == lowerChars b

theorem sameName_iff {a b : String} : sameName a b = true ↔ lowerChars a = lowerChars b := by
  simp [sameName]

@[simp]
theorem sameName_refl (a : String) : sameName a a = true := by
  simp [sameName]

theorem sameName_comm (a b : String) : sameName a b = sameName b a := by
  simp [sameName, eq_comm]

inductive EventType where
  | change
  | quality
  | periodic
  | archive
  | user
  | attrConf
  | dataReady
  | interfaceChange
  | pipe
deriving DecidableEq

/-- `Tango::EventName`. -/
def EventType.name : EventType → String
  | .change => "change"
  | .quality => "quality"
  | .periodic => "periodic"
  | .archive => "archive"
  | .user => "user_event"
  | .attrConf => "attr_conf"
  | .dataReady => "data_ready"
  | .interfaceChange => "intr_change"
  | .pipe => "pipe"

theorem EventType.name_injective {a b : EventType} (h : a.name = b.name) : a = b := by
  cases a <;> cases b <;> first | rfl | exact absurd h (by decide)

theorem EventType.lowerChars_name (a : EventType) : lowerChars a.name = a.name.toList := by
  cases a <;> decide

theorem EventType.sameName_iff {a b : EventType} : sameName a.name b.name = true ↔ a = b := by
  rw [DshLmc.sameName_iff, lowerChars_name, lowerChars_name, String.toList_inj]
  exact ⟨name_injective, congrArg name⟩

/-- `Tango::AttributeInfoEx`, the configuration of an attribute. -/
structure AttributeInfoEx where
  data_type : Int
  data_format : Int
  max_dim_x : Int
  enum_labels : List String
deriving DecidableEq

structure EventHandlerData where
  name : String
  execution_delay : Int
  priority : Int
deriving DecidableEq

structure EvtSubscriptionData where
  device_name : String
  attr_name : String
  event_type : EventType
  subscription_id : Int := -1
  is_subscribed : Bool := false
  event_handlers : List EventHandlerData := []
  event_attr_info : Option AttributeInfoEx := none
deriving DecidableEq

namespace EvtSubscriptionData

/-- `operator==`, and the equivalence of `operator<`. -/
def same (lhs rhs : EvtSubscriptionData) : Bool :=
  sameName lhs.attr_name rhs.attr_name && sameName lhs.device_name rhs.device_name
    && sameName lhs.event_type.name rhs.event_type.name

theorem same_iff {lhs rhs : EvtSubscriptionData} :
    lhs.same rhs = true ↔ sameName lhs.attr_name rhs.attr_name = true
      ∧ sameName lhs.device_name rhs.device_name = true ∧ lhs.event_type = rhs.event_type := by
  rw [same, Bool.and_eq_true, Bool.and_eq_true, EventType.sameName_iff, and_assoc]

/-- What a comparison of two subscriptions looks at. -/
def key (data : EvtSubscriptionData) : List Char × List Char × EventType :=
  (lowerChars data.attr_name, lowerChars data.device_name, data.event_type)

theorem same_iff_key {lhs rhs : EvtSubscriptionData} : lhs.same rhs = true ↔ lhs.key = rhs.key := by
  rw [same_iff, sameName_iff, sameName_iff, key, key, Prod.mk.injEq, Prod.mk.injEq]

theorem same_comm (lhs rhs : EvtSubscriptionData) : lhs.same rhs = rhs.same lhs := by
  simp only [same, sameName_comm]

theorem same_congr {lhs rhs : EvtSubscriptionData} (h : lhs.same rhs = true)
    (data : EvtSubscriptionData) : lhs.same data = rhs.same data := by
  rw [Bool.eq_iff_iff, same_iff_key, same_iff_key, same_iff_key.mp h]

def setSubscribed (data : EvtSubscriptionData) (subEvId : Int) : EvtSubscriptionData :=
  { data with is_subscribed := true, subscription_id := subEvId }

def setUnsubscribed (data : EvtSubscriptionData) : EvtSubscriptionData :=
  { data with is_subscribed := false, subscription_id := -1 }

end EvtSubscriptionData

end DshLmc
