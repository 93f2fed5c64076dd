import DshLmc.Library.Run
import DshLmc.Proof.FormulaRollback
import DshLmc.Utils.EventInterface

/-!
# What the manager promises about events

The manager answers about events through the helper of a proxy. Its test for a subscription is true
for a proxy that has no helper and false for one that has, its subscription refuses every callback, and
its handlers are accepted whether the device has the commands or not.
-/

namespace DshLmc

namespace TangoProxyHelper

/-- The entries of a registry are for its proxy, and for one event there is one entry. -/
structure Keyed (helper : TangoProxyHelper) : Prop where
  device : ∀ ptr ∈ helper.m_evtSubscriptions, ptr.obj.device_name = helper.m_proxy_name
  keys : (helper.m_evtSubscriptions.map EvtSubscriptionDataPtr.key).Nodup

section Keyed

variable {helper : TangoProxyHelper} {attr_name : String} {event_type : EventType}
  {ptr : EvtSubscriptionDataPtr}

theorem keyed_new (proxy_name : String) : (new proxy_name).Keyed where
  device := by simp [new]
  keys := by simp [new]

theorem Keyed.congr {helper' : TangoProxyHelper} (h : helper.Keyed)
    (hname : helper'.m_proxy_name = helper.m_proxy_name)
    (hentries : helper'.m_evtSubscriptions = helper.m_evtSubscriptions) : helper'.Keyed where
  device := by rw [hname, hentries]; exact h.device
  keys := by rw [hentries]; exact h.keys

theorem Keyed.monitor (h : helper.Keyed) (now : Rat) (report : MonitorReport) :
    (helper.monitor now report).Keyed := by
  cases report <;> exact h.congr rfl rfl

theorem Keyed.setTimeout (h : helper.Keyed) (timeout : Int) (now : Rat) :
    ((helper.setTimeout timeout now).getD helper).Keyed := by
  rw [TangoProxyHelper.setTimeout]
  split_ifs
  · exact h
  · exact h
  · exact h.congr rfl rfl

theorem Keyed.initProxy (h : helper.Keyed) {now : Rat} {report : Option MonitorReport}
    {helper' : TangoProxyHelper} (hinit : helper.initProxy now report = some helper') :
    helper'.Keyed := by
  rw [TangoProxyHelper.initProxy] at hinit
  split_ifs at hinit
  · exact Option.some.inj hinit ▸ h
  · obtain ⟨report', -, rfl⟩ := Option.map_eq_some_iff.mp hinit
    exact (h.congr rfl rfl : Keyed { helper with m_is_initialized := true }).monitor now report'

theorem Keyed.addEventSubscription (h : helper.Keyed) (attr_name : String) (event_type : EventType)
    (address : Nat) (attr_info : Option AttributeInfoEx) :
    (helper.addEventSubscription attr_name event_type address attr_info).Keyed := by
  rw [addEventSubscription_eq]
  refine ⟨fun ptr hptr => ?_, nodup_addNew h.keys _⟩
  rw [addNew] at hptr
  split_ifs at hptr with hkey
  · exact h.device ptr hptr
  · rcases List.mem_append.mp hptr with hptr | hptr
    · exact h.device ptr hptr
    · rw [List.mem_singleton.mp hptr]

theorem Keyed.removeEventSubscription (h : helper.Keyed) (attr_name : String)
    (event_type : EventType) : (helper.removeEventSubscription attr_name event_type).Keyed where
  device ptr hptr := h.device ptr (List.mem_of_mem_eraseP hptr)
  keys := by
    rw [removeEventSubscription_eq]
    exact nodup_removeKey h.keys _

theorem Keyed.not_isFor_of_append (h : helper.Keyed) {pre post : List EvtSubscriptionDataPtr}
    (hentries : helper.m_evtSubscriptions = pre ++ ptr :: post) :
    helper.isFor ptr.obj.attr_name ptr.obj.event_type ptr = true
      ∧ ∀ other ∈ pre, helper.isFor ptr.obj.attr_name ptr.obj.event_type other = false := by
  have hmem : ptr ∈ helper.m_evtSubscriptions := by simp [hentries]
  have hkey : ptr.key = helper.keyFor ptr.obj.attr_name ptr.obj.event_type := by
    rw [EvtSubscriptionDataPtr.key, EvtSubscriptionData.key, keyFor, h.device ptr hmem]
  refine ⟨isFor_iff.mpr hkey, fun other hother => ?_⟩
  rw [← Bool.not_eq_true, isFor_iff, ← hkey]
  intro heq
  have hkeys := h.keys
  rw [hentries, List.map_append, List.nodup_append'] at hkeys
  refine hkeys.2.2 (List.mem_map_of_mem hother) ?_
  rw [heq]
  exact List.mem_map_of_mem List.mem_cons_self

theorem changeSubscription_of_find
    (hfind : helper.find_event_subscription attr_name event_type = some ptr)
    (change : EvtSubscriptionData → EvtSubscriptionData) :
    ∃ pre post, helper.m_evtSubscriptions = pre ++ ptr :: post
      ∧ (∀ other ∈ pre, helper.isFor attr_name event_type other = false)
      ∧ helper.changeSubscription attr_name event_type change
        = { helper with m_evtSubscriptions := pre ++ { ptr with obj := change ptr.obj } :: post } := by
  rw [find_event_subscription, List.find?_eq_some_iff_append] at hfind
  obtain ⟨hptr, pre, post, hentries, hpre⟩ := hfind
  have hpre' : ∀ other ∈ pre, helper.isFor attr_name event_type other = false := fun other hother => by
    simpa using hpre other hother
  refine ⟨pre, post, hentries, hpre', ?_⟩
  rw [changeSubscription, hentries, modify_findIdx_append hpre' hptr]

/-- A change that leaves the event of an entry. -/
def KeepsEvent (change : EvtSubscriptionData → EvtSubscriptionData) : Prop :=
  ∀ data, (change data).device_name = data.device_name ∧ (change data).attr_name = data.attr_name
    ∧ (change data).event_type = data.event_type

theorem KeepsEvent.key {change : EvtSubscriptionData → EvtSubscriptionData} (h : KeepsEvent change)
    (data : EvtSubscriptionData) : (change data).key = data.key := by
  obtain ⟨hdevice, hattr, htype⟩ := h data
  rw [EvtSubscriptionData.key, hdevice, hattr, htype, EvtSubscriptionData.key]

theorem Keyed.replace (h : helper.Keyed) {pre post : List EvtSubscriptionDataPtr}
    (hentries : helper.m_evtSubscriptions = pre ++ ptr :: post) {ptr' : EvtSubscriptionDataPtr}
    (hkey : ptr'.key = ptr.key) (hdevice : ptr'.obj.device_name = ptr.obj.device_name) :
    Keyed { helper with m_evtSubscriptions := pre ++ ptr' :: post } := by
  have hdevices := h.device
  have hkeys := h.keys
  rw [hentries] at hdevices hkeys
  constructor
  · intro other hother
    rcases List.mem_append.mp hother with hother | hother
    · exact hdevices other (List.mem_append_left _ hother)
    · rcases List.mem_cons.mp hother with rfl | hother
      · exact hdevice.trans (hdevices ptr (by simp))
      · exact hdevices other (by simp [hother])
  · simpa [hkey] using hkeys

theorem Keyed.changeSubscription (h : helper.Keyed)
    (hfind : helper.find_event_subscription attr_name event_type = some ptr)
    {change : EvtSubscriptionData → EvtSubscriptionData} (hkeeps : KeepsEvent change) :
    (helper.changeSubscription attr_name event_type change).Keyed := by
  obtain ⟨pre, post, hentries, -, heq⟩ := changeSubscription_of_find hfind change
  rw [heq]
  exact h.replace hentries (hkeeps.key ptr.obj) (hkeeps ptr.obj).1

theorem find_changeSubscription
    (hfind : helper.find_event_subscription attr_name event_type = some ptr)
    {change : EvtSubscriptionData → EvtSubscriptionData} (hkeeps : KeepsEvent change) :
    (helper.changeSubscription attr_name event_type change).find_event_subscription attr_name
        event_type = some { ptr with obj := change ptr.obj } := by
  obtain ⟨pre, post, -, hpre, heq⟩ := changeSubscription_of_find hfind change
  have hptr : helper.isFor attr_name event_type ptr = true := List.find?_some hfind
  have hchanged : helper.isFor attr_name event_type { ptr with obj := change ptr.obj } = true := by
    rw [isFor_iff] at hptr ⊢
    rw [← hptr]
    exact hkeeps.key ptr.obj
  rw [heq, find_event_subscription, List.find?_eq_some_iff_append]
  exact ⟨hchanged, pre, post, rfl, fun other hother =>
    (Bool.not_eq_true' _).mpr (hpre other hother)⟩

end Keyed

section Subscribing

variable (sys : EventSystem) {helper : TangoProxyHelper}

/-- An entry after an attempt to subscribe to its event. -/
def afterSubscribing (helper : TangoProxyHelper) (ptr : EvtSubscriptionDataPtr) :
    EvtSubscriptionDataPtr :=
  if ptr.obj.is_subscribed then ptr
  else match sys.subscribe_event helper.m_proxy_name ptr.obj.attr_name ptr.obj.event_type with
    | none => ptr
    | some subscriptionId =>
        { ptr with obj := helper.subscribedData sys ptr.obj.attr_name subscriptionId ptr.obj }

theorem subscribeToEvent_entry {pre post : List EvtSubscriptionDataPtr} {ptr : EvtSubscriptionDataPtr}
    (h : helper.Keyed) (hentries : helper.m_evtSubscriptions = pre ++ ptr :: post) :
    (helper.subscribeToEvent sys ptr.obj.attr_name ptr.obj.event_type true).2
      = { helper with m_evtSubscriptions := pre ++ helper.afterSubscribing sys ptr :: post } := by
  obtain ⟨hptr, hpre⟩ := h.not_isFor_of_append hentries
  have hsame : { helper with m_evtSubscriptions := pre ++ ptr :: post } = helper := by
    rw [← hentries]
  have hfind : helper.find_event_subscription ptr.obj.attr_name ptr.obj.event_type = some ptr := by
    rw [find_event_subscription, hentries, List.find?_eq_some_iff_append]
    exact ⟨hptr, pre, post, rfl, fun other hother => (Bool.not_eq_true' _).mpr (hpre other hother)⟩
  simp only [subscribeToEvent, hfind, afterSubscribing, Bool.not_true, Bool.false_eq_true, if_false]
  split_ifs with hsubscribed
  · exact hsame.symm
  · cases sys.subscribe_event helper.m_proxy_name ptr.obj.attr_name ptr.obj.event_type with
    | none => exact hsame.symm
    | some subscriptionId =>
        simp only [changeSubscription, hentries]
        rw [modify_findIdx_append hpre hptr]

theorem key_afterSubscribing (ptr : EvtSubscriptionDataPtr) :
    (helper.afterSubscribing sys ptr).key = ptr.key
      ∧ (helper.afterSubscribing sys ptr).obj.device_name = ptr.obj.device_name := by
  rw [afterSubscribing]
  split_ifs
  · exact ⟨rfl, rfl⟩
  · split <;> exact ⟨rfl, rfl⟩

theorem subscribeToEvents_eq (h : helper.Keyed) :
    helper.subscribeToEvents sys true
      = (0, { helper with
          m_evtSubscriptions := helper.m_evtSubscriptions.map (helper.afterSubscribing sys) }) := by
  have hloop : ∀ (post pre : List EvtSubscriptionDataPtr) (current : TangoProxyHelper),
      current.Keyed → current.m_proxy_name = helper.m_proxy_name →
      current.m_evtSubscriptions = pre ++ post →
      post.foldl (fun helper ptr =>
          (helper.subscribeToEvent sys ptr.obj.attr_name ptr.obj.event_type true).2) current
        = { current with
            m_evtSubscriptions := pre ++ post.map (helper.afterSubscribing sys) } := by
    intro post
    induction post with
    | nil => 
        intro pre current _ _ hentries
        rw [List.foldl_nil, List.map_nil, ← hentries]
    | cons ptr post ih =>
        intro pre current hkeyed hname hentries
        rw [List.foldl_cons, subscribeToEvent_entry sys hkeyed hentries]
        have hafter : current.afterSubscribing sys ptr = helper.afterSubscribing sys ptr := by
          simp only [TangoProxyHelper.afterSubscribing, hname, subscribedData]
        rw [ih (pre ++ [current.afterSubscribing sys ptr]) _
          (hkeyed.replace hentries (key_afterSubscribing sys ptr).1 (key_afterSubscribing sys ptr).2)
          hname (by simp)]
        simp [hafter]
  rw [subscribeToEvents]
  simp only [Bool.not_true, Bool.false_eq_true, if_false]
  rw [hloop helper.m_evtSubscriptions [] helper h rfl rfl, List.nil_append]

theorem Keyed.subscribeToEvents (h : helper.Keyed) (event_cb : Bool) :
    (helper.subscribeToEvents sys event_cb).2.Keyed := by
  cases event_cb with
  | false => exact h
  | true =>
      rw [subscribeToEvents_eq sys h]
      constructor
      · intro ptr hptr
        obtain ⟨ptr', hptr', rfl⟩ := List.mem_map.mp hptr
        exact (key_afterSubscribing sys ptr').2.trans (h.device ptr' hptr')
      · have hkeys : (helper.m_evtSubscriptions.map (helper.afterSubscribing sys)).map
              EvtSubscriptionDataPtr.key
            = helper.m_evtSubscriptions.map EvtSubscriptionDataPtr.key := by
          rw [List.map_map]
          exact List.map_congr_left fun ptr _ => (key_afterSubscribing sys ptr).1
        exact hkeys ▸ h.keys

/-- Nothing changes when every entry is subscribed or its proxy refuses. -/
theorem subscribeToEvents_eq_self_iff (h : helper.Keyed) :
    (helper.subscribeToEvents sys true).2 = helper ↔
      ∀ ptr ∈ helper.m_evtSubscriptions, ptr.obj.is_subscribed = true
        ∨ sys.subscribe_event helper.m_proxy_name ptr.obj.attr_name ptr.obj.event_type = none := by
  have hentry : ∀ ptr, helper.afterSubscribing sys ptr = ptr ↔ ptr.obj.is_subscribed = true
      ∨ sys.subscribe_event helper.m_proxy_name ptr.obj.attr_name ptr.obj.event_type = none := by
    intro ptr
    rw [afterSubscribing]
    by_cases hsubscribed : ptr.obj.is_subscribed = true
    · simp [hsubscribed]
    · cases hid : sys.subscribe_event helper.m_proxy_name ptr.obj.attr_name ptr.obj.event_type with
      | none => simp
      | some subscriptionId =>
          simp only [hsubscribed, reduceCtorEq, or_self, iff_false]
          intro heq
          have hflag := congrArg (fun ptr => ptr.obj.is_subscribed) heq
          exact hsubscribed hflag.symm
  rw [subscribeToEvents_eq sys h]
  constructor
  · intro heq ptr hptr
    have hmap : helper.m_evtSubscriptions.map (helper.afterSubscribing sys)
        = helper.m_evtSubscriptions.map id := by
      rw [List.map_id]
      exact congrArg m_evtSubscriptions heq
    exact (hentry ptr).mp (List.map_inj_left.mp hmap ptr hptr)
  · intro hall
    have hmap : helper.m_evtSubscriptions.map (helper.afterSubscribing sys)
        = helper.m_evtSubscriptions.map id :=
      List.map_inj_left.mpr fun ptr hptr => (hentry ptr).mpr (hall ptr hptr)
    rw [hmap, List.map_id]

end Subscribing

theorem addEvtHandlers_eq (data : EvtSubscriptionData) (handlers : List String)
    (execution_delay priority : Int) :
    data.addEvtHandlers handlers execution_delay priority
      = { data with
          event_handlers := (handlers.map (EventHandlerData.mk · execution_delay priority)).foldl
            (addNew EventHandlerData.name) data.event_handlers } := by
  rw [EvtSubscriptionData.addEvtHandlers]
  induction handlers generalizing data with
  | nil => rfl
  | cons handler handlers ih =>
      have hany : (data.event_handlers.any fun evt_handler_data => evt_handler_data.name == handler)
          = true ↔ handler ∈ data.event_handlers.map EventHandlerData.name := by
        simp
      rw [List.foldl_cons, ih, List.map_cons, List.foldl_cons, addNew]
      by_cases h : handler ∈ data.event_handlers.map EventHandlerData.name
      · rw [if_pos (hany.mpr h), if_pos h]
      · rw [if_neg (mt hany.mp h), if_neg h]

theorem keepsEvent_addEvtHandlers (handlers : List String) (execution_delay priority : Int) :
    KeepsEvent fun data => data.addEvtHandlers handlers execution_delay priority := fun data => by
  simp [addEvtHandlers_eq]

theorem Keyed.addEventHandlers {helper : TangoProxyHelper} (h : helper.Keyed) (sys : EventSystem)
    (attr_name : String) (event_type : EventType) (event_handlers : List String)
    (execution_delay priority : Int) :
    (helper.addEventHandlers sys attr_name event_type event_handlers execution_delay
      priority).2.Keyed := by
  rw [TangoProxyHelper.addEventHandlers]
  cases hfind : helper.find_event_subscription attr_name event_type with
  | none => exact h
  | some ptr =>
      simp only
      split_ifs
      · exact h
      · exact h.changeSubscription hfind (keepsEvent_addEvtHandlers _ _ _)

end TangoProxyHelper

namespace TangoProxyManager

def Keyed (mgr : TangoProxyManager) : Prop :=
  ∀ proxy_name helper, mgr.findProxyHelper proxy_name = some helper → helper.Keyed

variable {mgr : TangoProxyManager}

theorem keyed_new : new.Keyed := by
  intro proxy_name helper h
  simp [new, findProxyHelper] at h

theorem Keyed.setHelper (h : mgr.Keyed) {proxy_name : String} {helper : TangoProxyHelper}
    (hhelper : helper.Keyed) : (mgr.setHelper proxy_name helper).Keyed := by
  intro q helper' hq
  rw [findProxyHelper_setHelper] at hq
  split_ifs at hq
  · exact Option.some.inj hq ▸ hhelper
  · exact h q helper' hq

theorem Keyed.call (h : mgr.Keyed) (c : EventSystem × ManagerCall) : (mgr.call c).Keyed := by
  obtain ⟨sys, c⟩ := c
  cases c with
  | registerProxy proxy_name timeout =>
      rw [TangoProxyManager.call, TangoProxyManager.registerProxy]
      cases mgr.findProxyHelper proxy_name with
      | some helper => exact h
      | none =>
          have hfresh := (TangoProxyHelper.keyed_new proxy_name).setTimeout timeout sys.now
          simp only
          cases hinit : (((TangoProxyHelper.new proxy_name).setTimeout timeout sys.now).getD
              (TangoProxyHelper.new proxy_name)).initProxy sys.now (sys.connect proxy_name) with
          | none => exact h
          | some helper =>
              intro q helper' hq
              rw [Option.map_some, Option.getD_some, findProxyHelper,
                Std.ExtTreeMap.getElem?_insertIfNew] at hq
              split_ifs at hq
              · exact Option.some.inj hq ▸ hfresh.initProxy hinit
              · exact h q helper' hq
  | unregisterProxy proxy_name =>
      intro q helper hq
      rw [TangoProxyManager.call, findProxyHelper_unregisterProxy] at hq
      split_ifs at hq
      exact h q helper hq
  | monitorProxy proxy_name report =>
      rw [TangoProxyManager.call, TangoProxyManager.monitorProxy]
      cases hfind : mgr.findProxyHelper proxy_name with
      | none => exact h
      | some helper => exact h.setHelper ((h _ _ hfind).monitor _ _)
  | initAndSubscribeProxies event_cb =>
      intro q helper' hq
      rw [TangoProxyManager.call, TangoProxyManager.initAndSubscribeProxies, findProxyHelper,
        Std.ExtTreeMap.getElem?_map] at hq
      obtain ⟨helper, hhelper, rfl⟩ := Option.map_eq_some_iff.mp hq
      rw [initAndSubscribe]
      cases hinit : helper.initProxy sys.now (sys.connect q) with
      | none => exact h q helper hhelper
      | some helper' => exact ((h q helper hhelper).initProxy hinit).subscribeToEvents sys event_cb
  | subscribeProxyToEvents proxy_name event_cb =>
      rw [TangoProxyManager.call, TangoProxyManager.subscribeProxyToEvents]
      split_ifs
      · exact h
      · cases hfind : mgr.findProxyHelper proxy_name with
        | none => exact h
        | some helper => exact h.setHelper ((h _ _ hfind).subscribeToEvents sys event_cb)
  | registerEvtSubscriptions proxy_name attr_name event_types =>
      rw [TangoProxyManager.call, TangoProxyManager.registerEvtSubscriptions]
      cases hfind : mgr.findProxyHelper proxy_name with
      | none => exact h
      | some helper =>
          exact h.setHelper (List.foldlRecOn event_types _ (h _ _ hfind) fun helper hkeyed _ _ =>
            hkeyed.addEventSubscription _ _ _ _)
  | unregisterEvtSubscriptions proxy_name attr_name event_types =>
      rw [TangoProxyManager.call, TangoProxyManager.unregisterEvtSubscriptions]
      cases hfind : mgr.findProxyHelper proxy_name with
      | none => exact h
      | some helper =>
          exact h.setHelper (List.foldlRecOn event_types _ (h _ _ hfind) fun helper hkeyed _ _ =>
            hkeyed.removeEventSubscription _ _)
  | registerEvtHandlers proxy_name attr_name event_type evt_handlers execution_delay priority =>
      rw [TangoProxyManager.call, TangoProxyManager.registerEvtHandlers]
      cases hfind : mgr.findProxyHelper proxy_name with
      | none => exact h
      | some helper => exact h.setHelper ((h _ _ hfind).addEventHandlers sys _ _ _ _ _)

theorem keyed_run (history : List (EventSystem × ManagerCall)) :
    (run TangoProxyManager.call new history).Keyed :=
  run_preserves (I := Keyed) (fun _ c h => h.call c) history keyed_new

/-- The registered helper of a proxy has a subscribed entry for the event. -/
def HoldsSubscribed (mgr : TangoProxyManager) (proxy_name attr_name : String)
    (event_type : EventType) : Prop :=
  ∃ helper, mgr.findProxyHelper proxy_name = some helper
    ∧ ∃ ptr ∈ helper.m_evtSubscriptions,
      helper.isFor attr_name event_type ptr = true ∧ ptr.obj.is_subscribed = true

def evtHandlers (mgr : TangoProxyManager) (proxy_name attr_name : String) (event_type : EventType) :
    Option (List EventHandlerData) :=
  (mgr.findEvtSubscription proxy_name attr_name event_type).map (·.obj.event_handlers)

/-- What a caller may expect of the manager. -/
inductive EventPromise where
  | answers (proxy_name attr_name : String) (event_type : EventType)
  | subscribes (proxy_name : String)
  | reports (proxy_name : String)
  | rejects (proxy_name attr_name : String) (event_type : EventType) (evt_handlers : List String)
      (execution_delay priority : Int)
  | adds (proxy_name attr_name : String) (event_type : EventType) (evt_handlers : List String)
      (execution_delay priority : Int)

/-- The promises: an event is subscribed if its helper says so; a callback has the effect on the helper,
and the result, that the helper gives it; handlers of which one is not a command are refused, and
handlers that are commands are added, each name that was not there once. -/
def Keeps (sys : EventSystem) (mgr : TangoProxyManager) : EventPromise → Prop
  | .answers proxy_name attr_name event_type =>
      mgr.isSubscribedToEvent proxy_name attr_name event_type = true ↔
        mgr.HoldsSubscribed proxy_name attr_name event_type
  | .subscribes proxy_name => ∀ helper, mgr.findProxyHelper proxy_name = some helper →
      (mgr.subscribeProxyToEvents sys proxy_name true).2
        = mgr.setHelper proxy_name (helper.subscribeToEvents sys true).2
  | .reports proxy_name => ∀ helper, mgr.findProxyHelper proxy_name = some helper →
      (mgr.subscribeProxyToEvents sys proxy_name true).1 = (helper.subscribeToEvents sys true).1
  | .rejects proxy_name attr_name event_type evt_handlers execution_delay priority =>
      (∃ handler ∈ evt_handlers, sys.get_cmd_by_name handler = false) →
      (mgr.registerEvtHandlers sys proxy_name attr_name event_type evt_handlers execution_delay
          priority).1 = -1
        ∧ (mgr.registerEvtHandlers sys proxy_name attr_name event_type evt_handlers execution_delay
            priority).2.evtHandlers proxy_name attr_name event_type
          = mgr.evtHandlers proxy_name attr_name event_type
  | .adds proxy_name attr_name event_type evt_handlers execution_delay priority =>
      (∀ handler ∈ evt_handlers, sys.get_cmd_by_name handler = true) →
      ∀ handlers, mgr.evtHandlers proxy_name attr_name event_type = some handlers →
      (mgr.registerEvtHandlers sys proxy_name attr_name event_type evt_handlers execution_delay
          priority).1 = 0
        ∧ ∃ added, (mgr.registerEvtHandlers sys proxy_name attr_name event_type evt_handlers
            execution_delay priority).2.evtHandlers proxy_name attr_name event_type
              = some (handlers ++ added)
          ∧ (added.map (·.name)).Nodup
          ∧ (∀ name, name ∈ added.map (·.name) ↔
              name ∈ evt_handlers ∧ name ∉ handlers.map (·.name))
          ∧ ∀ handler ∈ added, handler.execution_delay = execution_delay
            ∧ handler.priority = priority

/-- When the code keeps a promise. -/
def KeepsWhen (sys : EventSystem) (mgr : TangoProxyManager) : EventPromise → Prop
  | .answers proxy_name attr_name event_type =>
      (mgr.findProxyHelper proxy_name).isSome = true
        ∧ ¬ mgr.HoldsSubscribed proxy_name attr_name event_type
  | .subscribes proxy_name => ∀ helper, mgr.findProxyHelper proxy_name = some helper →
      ∀ ptr ∈ helper.m_evtSubscriptions, ptr.obj.is_subscribed = true
        ∨ sys.subscribe_event helper.m_proxy_name ptr.obj.attr_name ptr.obj.event_type = none
  | .reports proxy_name => mgr.findProxyHelper proxy_name = none
  | .rejects proxy_name attr_name event_type evt_handlers _ _ =>
      (∀ handler ∈ evt_handlers, sys.get_cmd_by_name handler = true)
        ∨ mgr.findEvtSubscription proxy_name attr_name event_type = none
  | .adds .. => True

theorem not_asInt_neg (flag : Bool) : ¬ asInt flag < 0 := by
  cases flag <;> decide

theorem isSubscribedToEvent_iff {proxy_name attr_name : String} {event_type : EventType} :
    mgr.isSubscribedToEvent proxy_name attr_name event_type = true ↔
      mgr.findProxyHelper proxy_name = none := by
  rw [isSubscribedToEvent]
  cases mgr.findProxyHelper proxy_name with
  | none => simp [asBool]
  | some helper => simp [asBool, not_asInt_neg]

theorem setHelper_eq_self_iff {proxy_name : String} {helper helper' : TangoProxyHelper}
    (hfind : mgr.findProxyHelper proxy_name = some helper) :
    mgr.setHelper proxy_name helper' = mgr ↔ helper' = helper := by
  constructor
  · intro heq
    have h : (mgr.setHelper proxy_name helper').findProxyHelper proxy_name = some helper' := by
      rw [findProxyHelper_setHelper, if_pos rfl]
    rw [heq, hfind] at h
    exact (Option.some.inj h).symm
  · rintro rfl
    refine ext_findProxyHelper fun q => ?_
    rw [findProxyHelper_setHelper]
    split_ifs with hq
    · exact hq ▸ hfind.symm
    · rfl

section Handlers

variable {sys : EventSystem} {proxy_name attr_name : String} {event_type : EventType}
  {evt_handlers : List String} {execution_delay priority : Int}

theorem findEvtSubscription_eq {helper : TangoProxyHelper}
    (hfind : mgr.findProxyHelper proxy_name = some helper) :
    mgr.findEvtSubscription proxy_name attr_name event_type
      = helper.find_event_subscription attr_name event_type := by
  simp [findEvtSubscription, hfind]

theorem registerEvtHandlers_of_none
    (hnone : mgr.findEvtSubscription proxy_name attr_name event_type = none) :
    mgr.registerEvtHandlers sys proxy_name attr_name event_type evt_handlers execution_delay priority
      = (-1, mgr) := by
  rw [registerEvtHandlers]
  cases hfind : mgr.findProxyHelper proxy_name with
  | none => rfl
  | some helper =>
      rw [findEvtSubscription_eq hfind] at hnone
      simp only [TangoProxyHelper.addEventHandlers, hnone]
      rw [(setHelper_eq_self_iff hfind).mpr rfl]
      rfl

variable (sys evt_handlers execution_delay priority) in
/-- The handlers of a subscription are accepted, commands or not. -/
theorem registerEvtHandlers_of_some {ptr : EvtSubscriptionDataPtr}
    (hsome : mgr.findEvtSubscription proxy_name attr_name event_type = some ptr) :
    (mgr.registerEvtHandlers sys proxy_name attr_name event_type evt_handlers execution_delay
        priority).1 = 0
      ∧ (mgr.registerEvtHandlers sys proxy_name attr_name event_type evt_handlers execution_delay
          priority).2.evtHandlers proxy_name attr_name event_type
        = some (ptr.obj.addEvtHandlers evt_handlers execution_delay priority).event_handlers := by
  cases hfind : mgr.findProxyHelper proxy_name with
  | none => simp [findEvtSubscription, hfind] at hsome
  | some helper =>
      rw [findEvtSubscription_eq hfind] at hsome
      have hadd : helper.addEventHandlers sys attr_name event_type evt_handlers execution_delay
          priority = (0, helper.changeSubscription attr_name event_type fun item =>
            item.addEvtHandlers evt_handlers execution_delay priority) := by
        rw [TangoProxyHelper.addEventHandlers, hsome]
        simp [not_asInt_neg]
      have hregister : mgr.registerEvtHandlers sys proxy_name attr_name event_type evt_handlers
          execution_delay priority
          = (0, mgr.setHelper proxy_name (helper.changeSubscription attr_name event_type fun item =>
            item.addEvtHandlers evt_handlers execution_delay priority)) := by
        simp only [registerEvtHandlers, hfind, hadd]
        rfl
      rw [hregister]
      refine ⟨rfl, ?_⟩
      have hfound := TangoProxyHelper.find_changeSubscription hsome
        (TangoProxyHelper.keepsEvent_addEvtHandlers evt_handlers execution_delay priority)
      rw [evtHandlers, findEvtSubscription_eq (by rw [findProxyHelper_setHelper, if_pos rfl]), hfound,
        Option.map_some]

end Handlers

/-! ### Each promise -/

section Promises

variable {sys : EventSystem} {proxy_name attr_name : String} {event_type : EventType}

theorem keeps_answers_iff :
    mgr.Keeps sys (.answers proxy_name attr_name event_type) ↔
      mgr.KeepsWhen sys (.answers proxy_name attr_name event_type) := by
  simp only [Keeps, KeepsWhen, isSubscribedToEvent_iff]
  cases hfind : mgr.findProxyHelper proxy_name with
  | none =>
      have hnot : ¬ mgr.HoldsSubscribed proxy_name attr_name event_type := by
        rintro ⟨helper, hhelper, -⟩
        simp [hfind] at hhelper
      simp [hnot]
  | some helper => simp

theorem keeps_subscribes_iff (h : mgr.Keyed) :
    mgr.Keeps sys (.subscribes proxy_name) ↔ mgr.KeepsWhen sys (.subscribes proxy_name) := by
  simp only [Keeps, KeepsWhen]
  refine forall_congr' fun helper => forall_congr' fun hfind => ?_
  rw [← TangoProxyHelper.subscribeToEvents_eq_self_iff sys (h _ _ hfind),
    ← setHelper_eq_self_iff hfind, eq_comm]
  rfl

theorem keeps_reports_iff :
    mgr.Keeps sys (.reports proxy_name) ↔ mgr.KeepsWhen sys (.reports proxy_name) := by
  simp only [Keeps, KeepsWhen]
  constructor
  · intro hreports
    by_contra hsome
    obtain ⟨helper, hfind⟩ := Option.ne_none_iff_exists'.mp hsome
    exact absurd (hreports helper hfind) (by simp [subscribeProxyToEvents,
      TangoProxyHelper.subscribeToEvents])
  · intro hnone helper hfind
    simp [hnone] at hfind

theorem keeps_rejects_iff {evt_handlers : List String} {execution_delay priority : Int} :
    mgr.Keeps sys (.rejects proxy_name attr_name event_type evt_handlers execution_delay priority) ↔
      mgr.KeepsWhen sys
        (.rejects proxy_name attr_name event_type evt_handlers execution_delay priority) := by
  simp only [Keeps, KeepsWhen]
  cases hfind : mgr.findEvtSubscription proxy_name attr_name event_type with
  | none => simp [registerEvtHandlers_of_none hfind]
  | some ptr =>
      rw [(registerEvtHandlers_of_some sys evt_handlers execution_delay priority hfind).1]
      simp

theorem keeps_adds {evt_handlers : List String} {execution_delay priority : Int} :
    mgr.Keeps sys
      (.adds proxy_name attr_name event_type evt_handlers execution_delay priority) := by
  intro _ handlers hhandlers
  rw [evtHandlers, Option.map_eq_some_iff] at hhandlers
  obtain ⟨ptr, hfind, rfl⟩ := hhandlers
  obtain ⟨hzero, hafter⟩ := registerEvtHandlers_of_some sys evt_handlers execution_delay
    priority hfind
  refine ⟨hzero, ?_⟩
  rw [TangoProxyHelper.addEvtHandlers_eq] at hafter
  obtain ⟨added, heq, hnodup, hmem, hkeys⟩ := exists_foldl_addNew_eq_append
    EventHandlerData.name (evt_handlers.map (EventHandlerData.mk · execution_delay priority))
    ptr.obj.event_handlers
  refine ⟨added, by rw [hafter, heq], hnodup, fun name => ?_, fun handler hhandler => ?_⟩
  · rw [hkeys]
    simp
  · obtain ⟨name, -, rfl⟩ := List.mem_map.mp (hmem handler hhandler)
    exact ⟨rfl, rfl⟩

end Promises

/-- **The promises, in every reachable state.** -/
theorem keeps_iff (history : List (EventSystem × ManagerCall)) (sys : EventSystem)
    (promise : EventPromise) :
    (run TangoProxyManager.call new history).Keeps sys promise ↔
      (run TangoProxyManager.call new history).KeepsWhen sys promise := by
  cases promise with
  | answers => exact keeps_answers_iff
  | subscribes => exact keeps_subscribes_iff (keyed_run history)
  | reports => exact keeps_reports_iff
  | rejects => exact keeps_rejects_iff
  | adds => exact iff_of_true keeps_adds trivial

/-- A device without commands, and proxies that can be made and accept every subscription. -/
def quietSystem : EventSystem where
  now := 0
  connect := fun _ => some .offline
  get_attribute_config := fun _ _ => none
  make_shared := fun _ _ _ => 0
  subscribe_event := fun _ _ _ => some 1
  get_cmd_by_name := fun _ => false

/-- One registered event. -/
def quietManager : TangoProxyManager :=
  run TangoProxyManager.call new
    [(quietSystem, .registerProxy "mid_dsh_0001/lmc/rx" 20),
      (quietSystem, .registerEvtSubscriptions "mid_dsh_0001/lmc/rx" "healthState" [.change])]

theorem findProxyHelper_quietManager :
    quietManager.findProxyHelper "mid_dsh_0001/lmc/spf" = none
      ∧ ∃ helper ptr, quietManager.findProxyHelper "mid_dsh_0001/lmc/rx" = some helper
        ∧ helper.m_evtSubscriptions = [ptr] ∧ ptr.obj.is_subscribed = false
        ∧ helper.find_event_subscription "healthState" .change = some ptr := by
  let fresh := { ((TangoProxyHelper.new "mid_dsh_0001/lmc/rx").setTimeout 20 0).getD
    (TangoProxyHelper.new "mid_dsh_0001/lmc/rx") with m_is_initialized := true }.monitor 0 .offline
  let registered : TangoProxyManager :=
    { m_proxyHelperMap := new.m_proxyHelperMap.insertIfNew "mid_dsh_0001/lmc/rx" fresh }
  have hnew : ∀ q, new.findProxyHelper q = none := by simp [new, findProxyHelper]
  have hregister : new.registerProxy quietSystem.toTangoSystem "mid_dsh_0001/lmc/rx" 20
      = some registered := by
    rw [registerProxy, hnew]
    rfl
  have hregistered : ∀ q, registered.findProxyHelper q
      = if "mid_dsh_0001/lmc/rx" = q then some fresh else none := by
    intro q
    simp only [registered, findProxyHelper, Std.ExtTreeMap.getElem?_insertIfNew, new]
    simp
  have hmanager : quietManager = registered.setHelper "mid_dsh_0001/lmc/rx"
      (fresh.addEventSubscription "healthState" .change 0 none) := by
    rw [quietManager, run_cons, run_cons, run_nil, call, hregister, Option.getD_some, call,
      registerEvtSubscriptions, hregistered, if_pos rfl]
    rfl
  refine ⟨by simp [hmanager, hregistered], fresh.addEventSubscription "healthState" .change 0 none,
    ⟨0, ⟨"mid_dsh_0001/lmc/rx", "healthState", .change, -1, false, [], none⟩⟩,
    by rw [hmanager, findProxyHelper_setHelper, if_pos rfl], rfl, rfl, ?_⟩
  rw [TangoProxyHelper.find_event_subscription, TangoProxyHelper.addEventSubscription_eq]
  exact List.find?_eq_some_iff_append.mpr ⟨TangoProxyHelper.isFor_iff.mpr rfl, [], [], rfl, by simp⟩

/-- A proxy that was never registered counts as subscribed, a callback for the registered one is not
subscribed, and a handler that is no command is accepted. -/
theorem keeps_fails :
    ¬ quietManager.Keeps quietSystem (.answers "mid_dsh_0001/lmc/spf" "healthState" .change)
      ∧ ¬ quietManager.Keeps quietSystem (.subscribes "mid_dsh_0001/lmc/rx")
      ∧ ¬ quietManager.Keeps quietSystem
        (.rejects "mid_dsh_0001/lmc/rx" "healthState" .change ["NoSuchCommand"] 0 2) := by
  obtain ⟨hother, helper, ptr, hhelper, hentries, hunsubscribed, hfind⟩ :=
    findProxyHelper_quietManager
  refine ⟨?_, ?_, ?_⟩
  · rw [keeps_answers_iff]
    intro h
    simp [KeepsWhen, hother] at h
  · have hkeyed : quietManager.Keyed := keyed_run _
    rw [keeps_subscribes_iff hkeyed]
    intro h
    have hptr := h helper hhelper ptr (by simp [hentries])
    simp [hunsubscribed, quietSystem] at hptr
  · rw [keeps_rejects_iff]
    intro h
    simp [KeepsWhen, quietSystem, findEvtSubscription_eq hhelper, hfind] at h

end TangoProxyManager

end DshLmc
