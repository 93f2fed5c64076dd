import DshLmc.Proof.Subscriptions
import DshLmc.Utils.FormulaManager

/-!
# Registering a formula that fails

When a proxy of a formula cannot be registered, `RegisterFormula` removes what it has registered so
far: the events it tried to add, and then the proxies it made. An event counts as new when the proxy
has no subscription for an attribute with the name of the *formula attribute*, and so an event that
was there before can be among those that are removed.
-/

namespace DshLmc

namespace TangoProxyManager

variable {sys : TangoSystem} {mgr : TangoProxyManager}

@[simp]
theorem findProxyHelper_setHelper (proxy_name : String) (helper : TangoProxyHelper) (q : String) :
    (mgr.setHelper proxy_name helper).findProxyHelper q
      = if proxy_name = q then some helper else mgr.findProxyHelper q := by
  rw [findProxyHelper, setHelper, Std.ExtTreeMap.getElem?_insert]
  by_cases h : proxy_name = q <;> simp [h, findProxyHelper]

@[simp]
theorem findProxyHelper_unregisterProxy (proxy_name q : String) :
    (mgr.unregisterProxy proxy_name).findProxyHelper q
      = if proxy_name = q then none else mgr.findProxyHelper q := by
  rw [findProxyHelper, unregisterProxy, Std.ExtTreeMap.getElem?_erase]
  by_cases h : proxy_name = q <;> simp [h, findProxyHelper]

theorem ext_findProxyHelper {mgr mgr' : TangoProxyManager}
    (h : ∀ q, mgr.findProxyHelper q = mgr'.findProxyHelper q) : mgr = mgr' := by
  cases mgr
  cases mgr'
  exact congrArg TangoProxyManager.mk (Std.ExtTreeMap.ext_getElem? h)

theorem registerProxy_of_none (sys : TangoSystem) {proxy_name : String}
    (hnone : mgr.findProxyHelper proxy_name = none) (timeout : Int) :
    (sys.connect proxy_name = none ∧ mgr.registerProxy sys proxy_name timeout = none)
      ∨ ((sys.connect proxy_name).isSome = true
        ∧ ∃ helper mgr', mgr.registerProxy sys proxy_name timeout = some mgr'
          ∧ ∀ q, mgr'.findProxyHelper q
            = if proxy_name = q then some helper else mgr.findProxyHelper q) := by
  have hnotin : proxy_name ∉ mgr.m_proxyHelperMap := by
    simpa [findProxyHelper] using hnone
  let fresh := ((TangoProxyHelper.new proxy_name).setTimeout timeout sys.now).getD
    (.new proxy_name)
  have hinit : fresh.m_is_initialized = false := by
    simp only [fresh, TangoProxyHelper.setTimeout]
    split
    · rfl
    · split <;> rfl
  have hregister : mgr.registerProxy sys proxy_name timeout
      = (fresh.initProxy sys.now (sys.connect proxy_name)).map fun helper =>
          ⟨mgr.m_proxyHelperMap.insertIfNew proxy_name helper⟩ := by
    simp only [registerProxy, hnone, fresh]
  rw [TangoProxyHelper.initProxy, hinit] at hregister
  cases hconnect : sys.connect proxy_name with
  | none =>
      rw [hconnect] at hregister
      exact Or.inl ⟨rfl, hregister⟩
  | some report =>
      rw [hconnect] at hregister
      refine Or.inr ⟨rfl, { fresh with m_is_initialized := true }.monitor sys.now report, _,
        hregister, ?_⟩
      intro q
      rw [findProxyHelper, Std.ExtTreeMap.getElem?_insertIfNew]
      by_cases hq : proxy_name = q
      · subst hq
        simp [hnotin]
      · simp [hq, findProxyHelper]

def newSubscription (sys : TangoSystem) (proxy_name device_name attr_name : String)
    (event_type : EventType) : EvtSubscriptionDataPtr :=
  ⟨sys.make_shared proxy_name attr_name event_type,
    ⟨device_name, attr_name, event_type, -1, false, [],
      sys.get_attribute_config proxy_name attr_name⟩⟩

theorem registerEvtSubscriptions_eq {proxy_name : String} {helper : TangoProxyHelper}
    (h : mgr.findProxyHelper proxy_name = some helper) (attr_name : String)
    (event_types : List EventType) :
    mgr.registerEvtSubscriptions sys proxy_name attr_name event_types
      = some (mgr.setHelper proxy_name { helper with
          m_evtSubscriptions :=
            (event_types.map (newSubscription sys proxy_name helper.m_proxy_name attr_name)).foldl
              (addNew EvtSubscriptionDataPtr.key) helper.m_evtSubscriptions }) := by
  have hfold : ∀ helper : TangoProxyHelper,
      event_types.foldl (fun proxy_helper event_type =>
        proxy_helper.addEventSubscription attr_name event_type
          (sys.make_shared proxy_name attr_name event_type)
          (sys.get_attribute_config proxy_name attr_name)) helper
      = { helper with
          m_evtSubscriptions :=
            (event_types.map (newSubscription sys proxy_name helper.m_proxy_name attr_name)).foldl
              (addNew EvtSubscriptionDataPtr.key) helper.m_evtSubscriptions } := by
    induction event_types with
    | nil => exact fun _ => rfl
    | cons event_type rest ih =>
        intro helper
        rw [List.foldl_cons, ih, TangoProxyHelper.addEventSubscription_eq]
        rfl
  rw [registerEvtSubscriptions, h, Option.map_some, hfold]

theorem unregisterEvtSubscriptions_eq {proxy_name : String} {helper : TangoProxyHelper}
    (h : mgr.findProxyHelper proxy_name = some helper) (attr_name : String)
    (event_types : List EventType) :
    mgr.unregisterEvtSubscriptions proxy_name attr_name event_types
      = some (mgr.setHelper proxy_name { helper with
          m_evtSubscriptions := (event_types.map (helper.keyFor attr_name)).foldl
            (removeKey EvtSubscriptionDataPtr.key) helper.m_evtSubscriptions }) := by
  have hfold : ∀ helper : TangoProxyHelper,
      event_types.foldl (fun proxy_helper event_type =>
        proxy_helper.removeEventSubscription attr_name event_type) helper
      = { helper with
          m_evtSubscriptions := (event_types.map (helper.keyFor attr_name)).foldl
            (removeKey EvtSubscriptionDataPtr.key) helper.m_evtSubscriptions } := by
    induction event_types with
    | nil => exact fun _ => rfl
    | cons event_type rest ih =>
        intro helper
        rw [List.foldl_cons, ih, TangoProxyHelper.removeEventSubscription_eq]
        rfl
  rw [unregisterEvtSubscriptions, h, Option.map_some, hfold]

theorem findEvtSubscription_isSome_iff {proxy_name attr_name : String} {event_type : EventType} :
    (mgr.findEvtSubscription proxy_name attr_name event_type).isSome = true
      ↔ ∃ helper, mgr.findProxyHelper proxy_name = some helper
        ∧ helper.keyFor attr_name event_type
          ∈ helper.m_evtSubscriptions.map EvtSubscriptionDataPtr.key := by
  rw [findEvtSubscription]
  cases mgr.findProxyHelper proxy_name with
  | none => simp
  | some helper =>
      rw [Option.bind_eq_bind, Option.bind_some,
        TangoProxyHelper.find_event_subscription_isSome_iff]
      simp

end TangoProxyManager

namespace FormulaManager

/-! ### What the loop tries to add -/

def Subscribed (mgr : TangoProxyManager) (proxy_name attr_name : String)
    (event_type : EventType) : Prop :=
  (mgr.findEvtSubscription proxy_name attr_name event_type).isSome = true

def attempts (sys : TangoSystem) (proxy_name device_name : String)
    (events : List RegisteredEvent) : List EvtSubscriptionDataPtr :=
  events.flatMap fun event =>
    if event.proxy_name = proxy_name then
      event.evt_types.map (TangoProxyManager.newSubscription sys proxy_name device_name
        event.attr_name)
    else []

def withAttempts (sys : TangoSystem) (proxy_name : String) (helper : TangoProxyHelper)
    (events : List RegisteredEvent) : TangoProxyHelper :=
  { helper with
    m_evtSubscriptions := (attempts sys proxy_name helper.m_proxy_name events).foldl
      (addNew EvtSubscriptionDataPtr.key) helper.m_evtSubscriptions }

theorem attempts_append_singleton (sys : TangoSystem) (proxy_name device_name : String)
    (events : List RegisteredEvent) (event : RegisteredEvent) :
    attempts sys proxy_name device_name (events ++ [event])
      = attempts sys proxy_name device_name events
        ++ if event.proxy_name = proxy_name then
            event.evt_types.map (TangoProxyManager.newSubscription sys proxy_name device_name
              event.attr_name)
          else [] := by
  simp [attempts]

theorem mem_keys_attempts_iff {sys : TangoSystem} {proxy_name attr_name : String}
    {helper : TangoProxyHelper} {events : List RegisteredEvent} {event_type : EventType} :
    helper.keyFor attr_name event_type
        ∈ (attempts sys proxy_name helper.m_proxy_name events).map EvtSubscriptionDataPtr.key
      ↔ ∃ event ∈ events, event.proxy_name = proxy_name
        ∧ sameName event.attr_name attr_name = true ∧ event_type ∈ event.evt_types := by
  rw [List.mem_map]
  constructor
  · rintro ⟨ptr, hptr, hkey⟩
    obtain ⟨event, hevent, hptr⟩ := List.mem_flatMap.mp hptr
    by_cases hproxy : event.proxy_name = proxy_name
    · rw [if_pos hproxy] at hptr
      obtain ⟨type, htype, rfl⟩ := List.mem_map.mp hptr
      obtain ⟨hname, _, rfl⟩ := EvtSubscriptionData.same_iff.mp
        (EvtSubscriptionData.same_iff_key.mpr hkey :
          (TangoProxyManager.newSubscription sys proxy_name helper.m_proxy_name event.attr_name
            type).obj.same
            ⟨helper.m_proxy_name, attr_name, event_type, -1, false, [], none⟩ = true)
      exact ⟨event, hevent, hproxy, hname, htype⟩
    · simp [hproxy] at hptr
  · rintro ⟨event, hevent, hproxy, hname, htype⟩
    have hsame : (TangoProxyManager.newSubscription sys proxy_name helper.m_proxy_name
        event.attr_name event_type).obj.same
        ⟨helper.m_proxy_name, attr_name, event_type, -1, false, [], none⟩ = true :=
      EvtSubscriptionData.same_iff.mpr ⟨hname, sameName_refl _, rfl⟩
    refine ⟨_, List.mem_flatMap.mpr ⟨event, hevent, ?_⟩, EvtSubscriptionData.same_iff_key.mp hsame⟩
    rw [if_pos hproxy]
    exact List.mem_map_of_mem htype

/-- The loop takes the event for one that is registered: it was found under the name of the formula
attribute before the call, or an earlier variable of the proxy has that name. -/
def Found (before : TangoProxyManager) (attr_name : String) (done : List FormulaVar)
    (proxy_name : String) (event_type : EventType) : Prop :=
  Subscribed before proxy_name attr_name event_type
    ∨ ∃ v ∈ done, v.device_name = some proxy_name ∧ sameName v.attr_name attr_name = true

/-- How far the loop is after some variables. -/
structure Progress (sys : TangoSystem) (before : TangoProxyManager) (attr_name : String)
    (evt_types : List EventType) (done : List FormulaVar) (loop : RegisterLoop) : Prop where
  kept : ∀ p helper, before.findProxyHelper p = some helper →
    loop.proxies.findProxyHelper p = some (withAttempts sys p helper loop.registered_events)
  made : ∀ p, before.findProxyHelper p = none →
    ((loop.proxies.findProxyHelper p).isSome = true ↔ p ∈ loop.registered_proxies)
  fresh : ∀ p ∈ loop.registered_proxies,
    before.findProxyHelper p = none ∧ (sys.connect p).isSome = true
  reached : ∀ v ∈ done, ∀ p, v.device_name = some p →
    (before.findProxyHelper p).isSome = true ∨ (sys.connect p).isSome = true
  attempted : ∀ p attr event_type, (before.findProxyHelper p).isSome = true →
    ((∃ event ∈ loop.registered_events, event.proxy_name = p ∧ event.attr_name = attr
        ∧ event_type ∈ event.evt_types)
      ↔ ∃ first v rest, done = first ++ v :: rest ∧ v.device_name = some p ∧ v.attr_name = attr
        ∧ event_type ∈ evt_types ∧ ¬ Found before attr_name first p event_type)

theorem progress_nil (sys : TangoSystem) (before : TangoProxyManager) (attr_name : String)
    (evt_types : List EventType) :
    Progress sys before attr_name evt_types [] { proxies := before } where
  kept _ _ h := h
  made p h := by simp [h]
  fresh _ h := by simp at h
  reached _ h := by simp at h
  attempted _ _ _ _ := by simp

theorem exists_split_append_singleton {α : Type*} {l : List α} {x : α} {Q : List α → α → Prop} :
    (∃ first y rest, l ++ [x] = first ++ y :: rest ∧ Q first y)
      ↔ (∃ first y rest, l = first ++ y :: rest ∧ Q first y) ∨ Q l x := by
  constructor
  · rintro ⟨first, y, rest, hsplit, hQ⟩
    obtain rfl | ⟨init, z, rfl⟩ := List.eq_nil_or_concat rest
    · obtain ⟨rfl, hxy⟩ := List.append_inj' hsplit rfl
      obtain rfl := List.singleton_inj.mp hxy
      exact Or.inr hQ
    · rw [List.concat_eq_append, ← List.cons_append, ← List.append_assoc] at hsplit
      obtain ⟨rfl, _⟩ := List.append_inj' hsplit rfl
      exact Or.inl ⟨first, y, init, rfl, hQ⟩
  · rintro (⟨first, y, rest, rfl, hQ⟩ | hQ)
    · exact ⟨first, y, rest ++ [x], by simp, hQ⟩
    · exact ⟨l, x, [], rfl, hQ⟩

namespace Progress

variable {sys : TangoSystem} {before : TangoProxyManager} {attr_name : String}
  {evt_types : List EventType} {done : List FormulaVar} {loop : RegisterLoop}

theorem subscribed_iff (h : Progress sys before attr_name evt_types done loop)
    {p : String} {helper : TangoProxyHelper} (hp : before.findProxyHelper p = some helper)
    (attr : String) (event_type : EventType) :
    Subscribed loop.proxies p attr event_type
      ↔ Subscribed before p attr event_type
        ∨ ∃ event ∈ loop.registered_events, event.proxy_name = p
          ∧ sameName event.attr_name attr = true ∧ event_type ∈ event.evt_types := by
  rw [Subscribed, Subscribed, TangoProxyManager.findEvtSubscription_isSome_iff,
    TangoProxyManager.findEvtSubscription_isSome_iff, h.kept p helper hp, hp,
    ← mem_keys_attempts_iff]
  simp only [Option.some.injEq, exists_eq_left']
  exact mem_keys_foldl_addNew

theorem found_iff (h : Progress sys before attr_name evt_types done loop)
    {p : String} {helper : TangoProxyHelper} (hp : before.findProxyHelper p = some helper)
    {event_type : EventType} (htype : event_type ∈ evt_types) :
    Subscribed loop.proxies p attr_name event_type
      ↔ Found before attr_name done p event_type := by
  have hsome : (before.findProxyHelper p).isSome = true := by rw [hp]; rfl
  rw [h.subscribed_iff hp, Found]
  refine or_congr_right' ?_
  intro hnew
  constructor
  · rintro ⟨event, hevent, hproxy, hname, hmem⟩
    obtain ⟨first, v, rest, rfl, hdevice, hattr, _⟩ :=
      (h.attempted p event.attr_name event_type hsome).mp ⟨event, hevent, hproxy, rfl, hmem⟩
    exact ⟨v, List.mem_append_right _ List.mem_cons_self, hdevice, hattr ▸ hname⟩
  · rintro ⟨v, hv, hdevice, hname⟩
    -- the events of the first such variable are not found, so the loop adds them
    let named (v : FormulaVar) : Bool :=
      decide (v.device_name = some p) && sameName v.attr_name attr_name
    have hnamed : (done.find? named).isSome = true :=
      List.find?_isSome.mpr ⟨v, hv, by simp [named, hdevice, hname]⟩
    obtain ⟨u, hfind⟩ := Option.isSome_iff_exists.mp hnamed
    obtain ⟨hu, first, rest, hdone, hfirst⟩ := List.find?_eq_some_iff_append.mp hfind
    obtain ⟨hudevice, huname⟩ : u.device_name = some p ∧ sameName u.attr_name attr_name = true := by
      simpa [named] using hu
    have hnotfound : ¬ Found before attr_name first p event_type := by
      rintro (hold | ⟨w, hw, hwdevice, hwname⟩)
      · exact hnew hold
      · simpa [named, hwdevice, hwname] using hfirst w hw
    obtain ⟨event, hevent, hproxy, hattr, hmem⟩ := (h.attempted p u.attr_name event_type hsome).mpr
      ⟨first, u, rest, hdone, hudevice, rfl, htype, hnotfound⟩
    exact ⟨event, hevent, hproxy, hattr ▸ huname, hmem⟩

theorem internal (h : Progress sys before attr_name evt_types done loop) {v : FormulaVar}
    (hv : v.device_name = none) : Progress sys before attr_name evt_types (done ++ [v]) loop where
  kept := h.kept
  made := h.made
  fresh := h.fresh
  reached u hu p hp := by
    obtain hu | hu := List.mem_append.mp hu
    · exact h.reached u hu p hp
    · rw [List.mem_singleton.mp hu, hv] at hp
      cases hp
  attempted p attr event_type hp := by
    rw [h.attempted p attr event_type hp, exists_split_append_singleton, or_iff_left]
    rintro ⟨hdevice, _⟩
    rw [hv] at hdevice
    cases hdevice

theorem registerVarProxy (h : Progress sys before attr_name evt_types done loop) (p : String) :
    (∃ loop', FormulaManager.registerVarProxy sys p loop = .ok loop'
      ∧ Progress sys before attr_name evt_types done loop'
      ∧ (loop'.proxies.findProxyHelper p).isSome = true
      ∧ ((before.findProxyHelper p).isSome = true ∨ (sys.connect p).isSome = true))
    ∨ (before.findProxyHelper p = none ∧ sys.connect p = none
      ∧ FormulaManager.registerVarProxy sys p loop = .error loop) := by
  cases hfind : loop.proxies.findProxyHelper p with
  | some helper =>
      left
      refine ⟨loop, by simp [FormulaManager.registerVarProxy, hfind], h, by simp [hfind], ?_⟩
      cases hold : before.findProxyHelper p with
      | some helper => exact Or.inl rfl
      | none =>
          have hmade := (h.made p hold).mp (by simp [hfind])
          exact Or.inr (h.fresh p hmade).2
  | none =>
      have hbefore : before.findProxyHelper p = none := by
        cases hold : before.findProxyHelper p with
        | none => rfl
        | some helper => simpa [hfind] using h.kept p helper hold
      obtain ⟨hconnect, hregister⟩ | ⟨hconnect, helper, proxies, hregister, hproxies⟩ :=
        TangoProxyManager.registerProxy_of_none sys hfind 20
      · right
        refine ⟨hbefore, hconnect, ?_⟩
        simp [FormulaManager.registerVarProxy, hfind, hregister]
      · left
        refine ⟨{ loop with
            proxies := proxies
            registered_proxies := loop.registered_proxies ++ [p] }, ?_, ?_, ?_, Or.inr hconnect⟩
        · simp [FormulaManager.registerVarProxy, hfind, hregister]
        · constructor
          · intro q helper' hq
            have hne : p ≠ q := by
              rintro rfl
              rw [hbefore] at hq
              cases hq
            rw [hproxies, if_neg hne]
            exact h.kept q helper' hq
          · intro q hq
            rw [hproxies, List.mem_append, List.mem_singleton]
            by_cases hpq : p = q
            · simp [hpq]
            · rw [if_neg hpq, h.made q hq]
              simp [Ne.symm hpq]
          · intro q hq
            obtain hq | hq := List.mem_append.mp hq
            · exact h.fresh q hq
            · rw [List.mem_singleton.mp hq]
              exact ⟨hbefore, hconnect⟩
          · exact h.reached
          · exact h.attempted
        · simp [hproxies]

theorem registerVarEvents (h : Progress sys before attr_name evt_types done loop) {v : FormulaVar}
    {p : String} (hv : v.device_name = some p)
    (hp : (loop.proxies.findProxyHelper p).isSome = true)
    (hreached : (before.findProxyHelper p).isSome = true ∨ (sys.connect p).isSome = true) :
    ∃ loop', FormulaManager.registerVarEvents sys attr_name p v.attr_name evt_types loop = .ok loop'
      ∧ Progress sys before attr_name evt_types (done ++ [v]) loop' := by
  obtain ⟨helper, hhelper⟩ := Option.isSome_iff_exists.mp hp
  let types := evt_types.filter fun event_type =>
    (loop.proxies.findEvtSubscription p attr_name event_type).isNone
  refine ⟨{ loop with
      proxies := loop.proxies.setHelper p { helper with
        m_evtSubscriptions := (types.map (TangoProxyManager.newSubscription sys p
          helper.m_proxy_name v.attr_name)).foldl (addNew EvtSubscriptionDataPtr.key)
          helper.m_evtSubscriptions }
      registered_events := loop.registered_events ++ [⟨p, v.attr_name, types⟩] }, ?_, ?_⟩
  · rw [FormulaManager.registerVarEvents]
    simp only [TangoProxyManager.registerEvtSubscriptions_eq hhelper, types]
  · constructor
    · intro q helper' hq
      rw [TangoProxyManager.findProxyHelper_setHelper, withAttempts, attempts_append_singleton]
      by_cases hpq : p = q
      · subst hpq
        obtain rfl : helper = withAttempts sys p helper' loop.registered_events :=
          Option.some.inj (hhelper.symm.trans (h.kept p helper' hq))
        rw [if_pos rfl, if_pos rfl, List.foldl_append]
        rfl
      · rw [if_neg hpq, if_neg hpq, List.append_nil]
        exact h.kept q helper' hq
    · intro q hq
      rw [TangoProxyManager.findProxyHelper_setHelper, ← h.made q hq]
      by_cases hpq : p = q
      · subst hpq
        simp [hp]
      · rw [if_neg hpq]
    · exact h.fresh
    · intro u hu q hq
      obtain hu | hu := List.mem_append.mp hu
      · exact h.reached u hu q hq
      · rw [List.mem_singleton.mp hu, hv] at hq
        exact Option.some.inj hq ▸ hreached
    · intro q attr event_type hq
      rw [exists_split_append_singleton, ← h.attempted q attr event_type hq]
      simp only [List.mem_append, List.mem_singleton, or_and_right, exists_or, exists_eq_left]
      refine or_congr_right ?_
      rw [hv, Option.some.injEq]
      refine and_congr_right ?_
      rintro rfl
      refine and_congr_right fun _ => ?_
      rw [List.mem_filter, Option.isNone_iff_eq_none, ← Option.not_isSome_iff_eq_none]
      refine and_congr_right ?_
      intro htype
      obtain ⟨helper', hhelper'⟩ := Option.isSome_iff_exists.mp hq
      exact not_congr (h.found_iff hhelper' htype)

theorem registerVar (h : Progress sys before attr_name evt_types done loop) {v : FormulaVar}
    {p : String} (hv : v.device_name = some p) :
    (∃ loop', FormulaManager.registerVar sys attr_name p v.attr_name evt_types loop = .ok loop'
      ∧ Progress sys before attr_name evt_types (done ++ [v]) loop')
    ∨ (before.findProxyHelper p = none ∧ sys.connect p = none
      ∧ ∃ loop', FormulaManager.registerVar sys attr_name p v.attr_name evt_types loop
          = .error loop'
        ∧ Progress sys before attr_name evt_types done loop') := by
  have hpushed : Progress sys before attr_name evt_types done
      { loop with
        formula_attr_events := loop.formula_attr_events ++ [⟨p, v.attr_name, evt_types⟩] } :=
    ⟨h.kept, h.made, h.fresh, h.reached, h.attempted⟩
  rw [FormulaManager.registerVar]
  obtain ⟨loop₁, hloop₁, hprogress, hp, hreached⟩ | ⟨hbefore, hconnect, herror⟩ :=
    hpushed.registerVarProxy p
  · left
    rw [hloop₁]
    exact hprogress.registerVarEvents hv hp hreached
  · right
    rw [herror]
    exact ⟨hbefore, hconnect, _, rfl, hpushed⟩

end Progress

/-- The loop ends at the variable `v`: its proxy is not registered and cannot be, and that is so of
no variable before it. -/
def FailsAt (sys : TangoSystem) (before : TangoProxyManager) (first : List FormulaVar)
    (v : FormulaVar) : Prop :=
  (∃ p, v.device_name = some p ∧ before.findProxyHelper p = none ∧ sys.connect p = none)
    ∧ ∀ u ∈ first, ∀ p, u.device_name = some p →
      (before.findProxyHelper p).isSome = true ∨ (sys.connect p).isSome = true

theorem Progress.registerVars {sys : TangoSystem} {before : TangoProxyManager} {attr_name : String}
    {evt_types : List EventType} {done : List FormulaVar} {loop : RegisterLoop}
    (h : Progress sys before attr_name evt_types done loop) (vars : List FormulaVar) :
    (∃ loop', FormulaManager.registerVars sys attr_name evt_types vars loop = .ok loop'
      ∧ Progress sys before attr_name evt_types (done ++ vars) loop')
    ∨ ∃ loop' first v rest, FormulaManager.registerVars sys attr_name evt_types vars loop
        = .error loop'
      ∧ vars = first ++ v :: rest ∧ FailsAt sys before (done ++ first) v
      ∧ Progress sys before attr_name evt_types (done ++ first) loop' := by
  induction vars generalizing done loop with
  | nil => exact Or.inl ⟨loop, rfl, by simpa using h⟩
  | cons v rest ih =>
      cases hv : v.device_name with
      | none =>
          rw [registerVars_internal sys hv]
          obtain ⟨loop', hok, hprogress⟩ | ⟨loop', first, u, rest', herror, rfl, hfails, hprogress⟩ :=
            ih (h.internal hv)
          · exact Or.inl ⟨loop', hok, by simpa using hprogress⟩
          · exact Or.inr ⟨loop', v :: first, u, rest', herror, rfl, by simpa using hfails,
              by simpa using hprogress⟩
      | some p =>
          rw [registerVars_proxy sys hv]
          obtain ⟨loop₁, hloop₁, hprogress₁⟩ | ⟨hbefore, hconnect, loop₁, hloop₁, hprogress₁⟩ :=
            h.registerVar hv
          · rw [hloop₁]
            obtain ⟨loop', hok, hprogress⟩ | ⟨loop', first, u, rest', herror, rfl, hfails, hprogress⟩ :=
              ih hprogress₁
            · exact Or.inl ⟨loop', hok, by simpa using hprogress⟩
            · exact Or.inr ⟨loop', v :: first, u, rest', herror, rfl, by simpa using hfails,
                by simpa using hprogress⟩
          · rw [hloop₁]
            refine Or.inr ⟨loop₁, [], v, rest, rfl, rfl, ?_, by simpa using hprogress₁⟩
            rw [List.append_nil]
            exact ⟨⟨p, hv, hbefore, hconnect⟩, h.reached⟩

theorem findProxyHelper_unregisterEvtSubscriptions_ne {mgr : TangoProxyManager}
    {proxy_name p : String} (h : proxy_name ≠ p) {attr_name : String}
    {event_types : List EventType} :
    ((mgr.unregisterEvtSubscriptions proxy_name attr_name event_types).getD mgr).findProxyHelper p
      = mgr.findProxyHelper p := by
  cases hfind : mgr.findProxyHelper proxy_name with
  | none => simp [TangoProxyManager.unregisterEvtSubscriptions, hfind]
  | some helper => simp [TangoProxyManager.unregisterEvtSubscriptions_eq hfind, h]

/-- Undoing the events removes the keys of all that the loop has tried to add. -/
theorem findProxyHelper_unregisterEvents {p : String} {helper : TangoProxyHelper}
    (events : List RegisteredEvent) (sys : TangoSystem) {mgr : TangoProxyManager}
    (h : mgr.findProxyHelper p = some helper) :
    (events.foldl (fun proxies event =>
        (proxies.unregisterEvtSubscriptions event.proxy_name event.attr_name
          event.evt_types).getD proxies) mgr).findProxyHelper p
      = some { helper with
          m_evtSubscriptions :=
            ((attempts sys p helper.m_proxy_name events).map EvtSubscriptionDataPtr.key).foldl
              (removeKey EvtSubscriptionDataPtr.key) helper.m_evtSubscriptions } := by
  induction events generalizing mgr helper with
  | nil => exact h
  | cons event rest ih =>
      rw [List.foldl_cons]
      by_cases hproxy : event.proxy_name = p
      · subst hproxy
        have hkeys : (attempts sys event.proxy_name helper.m_proxy_name (event :: rest)).map
              EvtSubscriptionDataPtr.key
            = event.evt_types.map (helper.keyFor event.attr_name)
              ++ (attempts sys event.proxy_name helper.m_proxy_name rest).map
                EvtSubscriptionDataPtr.key := by
          rw [attempts, List.flatMap_cons, if_pos rfl, List.map_append, List.map_map]
          rfl
        rw [TangoProxyManager.unregisterEvtSubscriptions_eq h, Option.getD_some,
          ih (TangoProxyManager.findProxyHelper_setHelper .. |>.trans (if_pos rfl)), hkeys,
          List.foldl_append]
      · have hattempts : attempts sys p helper.m_proxy_name (event :: rest)
            = attempts sys p helper.m_proxy_name rest := by
          rw [attempts, List.flatMap_cons, if_neg hproxy, List.nil_append, attempts]
        rw [hattempts]
        refine ih ?_
        rw [findProxyHelper_unregisterEvtSubscriptions_ne hproxy, h]

theorem findProxyHelper_unregisterEvents_none {p : String} (events : List RegisteredEvent)
    {mgr : TangoProxyManager} (h : mgr.findProxyHelper p = none) :
    (events.foldl (fun proxies event =>
        (proxies.unregisterEvtSubscriptions event.proxy_name event.attr_name
          event.evt_types).getD proxies) mgr).findProxyHelper p = none := by
  induction events generalizing mgr with
  | nil => exact h
  | cons event rest ih =>
      refine ih ?_
      by_cases hproxy : event.proxy_name = p
      · subst hproxy
        simp [TangoProxyManager.unregisterEvtSubscriptions, h]
      · rw [findProxyHelper_unregisterEvtSubscriptions_ne hproxy, h]

theorem findProxyHelper_unregisterProxies (proxies : List String) (mgr : TangoProxyManager)
    (p : String) :
    (proxies.foldl TangoProxyManager.unregisterProxy mgr).findProxyHelper p
      = if p ∈ proxies then none else mgr.findProxyHelper p := by
  induction proxies generalizing mgr with
  | nil => simp
  | cons q rest ih =>
      rw [List.foldl_cons, ih, TangoProxyManager.findProxyHelper_unregisterProxy]
      by_cases hp : p ∈ rest
      · simp [hp]
      · by_cases hq : q = p
        · simp [hq]
        · simp [hp, hq, Ne.symm hq]

/-- The loop has not tried to add a subscription that a proxy had before. -/
def Spares (before : TangoProxyManager) (attr_name : String) (evt_types : List EventType)
    (first : List FormulaVar) : Prop :=
  ∀ earlier v later, first = earlier ++ v :: later → ∀ p, v.device_name = some p →
    (before.findProxyHelper p).isSome = true → ∀ event_type ∈ evt_types,
      Subscribed before p v.attr_name event_type → Found before attr_name earlier p event_type

theorem subscribed_iff_mem_keys {mgr : TangoProxyManager} {p attr_name : String}
    {event_type : EventType} {helper : TangoProxyHelper} (h : mgr.findProxyHelper p = some helper) :
    Subscribed mgr p attr_name event_type
      ↔ helper.keyFor attr_name event_type
        ∈ helper.m_evtSubscriptions.map EvtSubscriptionDataPtr.key := by
  rw [Subscribed, TangoProxyManager.findEvtSubscription_isSome_iff, h]
  simp

theorem mem_attempts_iff {sys : TangoSystem} {p device_name : String}
    {events : List RegisteredEvent} {ptr : EvtSubscriptionDataPtr} :
    ptr ∈ attempts sys p device_name events
      ↔ ∃ event ∈ events, event.proxy_name = p ∧ ∃ event_type ∈ event.evt_types,
        TangoProxyManager.newSubscription sys p device_name event.attr_name event_type = ptr := by
  rw [attempts, List.mem_flatMap]
  refine exists_congr fun event => and_congr_right fun _ => ?_
  by_cases hproxy : event.proxy_name = p <;> simp [hproxy]

/-- What becomes of a proxy that was registered before. -/
theorem Progress.findProxyHelper_unregister {sys : TangoSystem} {before : TangoProxyManager}
    {attr_name : String} {evt_types : List EventType} {done : List FormulaVar}
    {loop : RegisterLoop} (h : Progress sys before attr_name evt_types done loop) {p : String}
    {helper : TangoProxyHelper} (hp : before.findProxyHelper p = some helper) :
    (unregister loop).findProxyHelper p = some { helper with
      m_evtSubscriptions :=
        ((attempts sys p helper.m_proxy_name loop.registered_events).map
          EvtSubscriptionDataPtr.key).foldl (removeKey EvtSubscriptionDataPtr.key)
          ((attempts sys p helper.m_proxy_name loop.registered_events).foldl
            (addNew EvtSubscriptionDataPtr.key) helper.m_evtSubscriptions) } := by
  have hkept : p ∉ loop.registered_proxies := by
    intro hmem
    have hnone := (h.fresh p hmem).1
    rw [hp] at hnone
    cases hnone
  rw [unregister, findProxyHelper_unregisterProxies, if_neg hkept,
    findProxyHelper_unregisterEvents _ sys (h.kept p helper hp)]
  rfl

/-- **What undoing restores.** -/
theorem Progress.unregister_eq_iff {sys : TangoSystem} {before : TangoProxyManager}
    {attr_name : String} {evt_types : List EventType} {done : List FormulaVar}
    {loop : RegisterLoop} (h : Progress sys before attr_name evt_types done loop) :
    unregister loop = before ↔ Spares before attr_name evt_types done := by
  constructor
  · intro heq first v rest hdone p hv hp event_type htype hsubscribed
    by_contra hnotfound
    obtain ⟨helper, hhelper⟩ := Option.isSome_iff_exists.mp hp
    have hrestored := h.findProxyHelper_unregister hhelper
    rw [heq, hhelper] at hrestored
    have hnew := foldl_removeKey_foldl_addNew_eq_iff.mp
      (congrArg TangoProxyHelper.m_evtSubscriptions (Option.some.inj hrestored)).symm
    obtain ⟨event, hevent, hproxy, hattr, hmem⟩ := (h.attempted p v.attr_name event_type hp).mpr
      ⟨first, v, rest, hdone, hv, rfl, htype, hnotfound⟩
    refine hnew _ (mem_attempts_iff.mpr ⟨event, hevent, hproxy, event_type, hmem, rfl⟩) ?_
    rw [hattr]
    exact (subscribed_iff_mem_keys hhelper).mp hsubscribed
  · intro hspares
    refine TangoProxyManager.ext_findProxyHelper ?_
    intro p
    cases hp : before.findProxyHelper p with
    | none =>
        rw [unregister, findProxyHelper_unregisterProxies]
        by_cases hmade : p ∈ loop.registered_proxies
        · rw [if_pos hmade]
        · have hnone := mt (h.made p hp).mp hmade
          rw [if_neg hmade]
          exact findProxyHelper_unregisterEvents_none _ (Option.not_isSome_iff_eq_none.mp hnone)
    | some helper =>
        rw [h.findProxyHelper_unregister hp, foldl_removeKey_foldl_addNew_eq_iff.mpr]
        intro ptr hptr hold
        obtain ⟨event, hevent, rfl, event_type, hmem, rfl⟩ := mem_attempts_iff.mp hptr
        have hsome : (before.findProxyHelper event.proxy_name).isSome = true := by rw [hp]; rfl
        obtain ⟨first, v, rest, hdone, hv, hattr, htype, hnotfound⟩ :=
          (h.attempted event.proxy_name event.attr_name event_type hsome).mp
            ⟨event, hevent, rfl, rfl, hmem⟩
        refine hnotfound (hspares first v rest hdone _ hv hsome event_type htype ?_)
        rw [hattr]
        exact (subscribed_iff_mem_keys hp).mpr hold

theorem FailsAt.not_reached {sys : TangoSystem} {before : TangoProxyManager}
    {first : List FormulaVar} {v : FormulaVar} (h : FailsAt sys before first v)
    (hreached : ∀ p, v.device_name = some p →
      (before.findProxyHelper p).isSome = true ∨ (sys.connect p).isSome = true) : False := by
  obtain ⟨⟨p, hv, hbefore, hconnect⟩, _⟩ := h
  obtain hsome | hsome := hreached p hv
  · simp [hbefore] at hsome
  · simp [hconnect] at hsome

theorem FailsAt.unique {sys : TangoSystem} {before : TangoProxyManager}
    {first first' rest rest' : List FormulaVar} {v v' : FormulaVar}
    (hsplit : first ++ v :: rest = first' ++ v' :: rest') (h : FailsAt sys before first v)
    (h' : FailsAt sys before first' v') : first = first' := by
  obtain ⟨between, rfl, hrest⟩ | ⟨between, rfl, hrest⟩ := List.append_eq_append_iff.mp hsplit
  · cases between with
    | nil => simp
    | cons u between =>
        obtain ⟨rfl, _⟩ := List.cons.inj hrest
        exact (h.not_reached (h'.2 v (by simp))).elim
  · cases between with
    | nil => simp
    | cons u between =>
        obtain ⟨rfl, _⟩ := List.cons.inj hrest
        exact (h'.not_reached (h.2 v' (by simp))).elim

/-- **When a failed registration leaves everything as it was.** It does exactly when, if a proxy of
the formula cannot be registered, no variable before it is on a subscription that its proxy had
before the call, unless the loop found the event under the name of the formula attribute. -/
theorem registerFormula_unchanged_iff (sys : TangoSystem) (mgr : FormulaManager)
    (attr_name : String) (formula_data : FormulaData) :
    ((registerFormula sys mgr attr_name (some formula_data)).1 = -1 →
        (registerFormula sys mgr attr_name (some formula_data)).2 = mgr)
      ↔ (mgr.findFormula attr_name = none → ∀ first v rest,
        formula_data.vars = first ++ v :: rest → FailsAt sys mgr.m_proxyManager first v →
        Spares mgr.m_proxyManager attr_name formula_data.m_evaluation_modes first) := by
  rw [registerFormula]
  cases hfind : mgr.findFormula attr_name with
  | some data => simp
  | none =>
      simp only [forall_const]
      obtain ⟨loop, hok, hprogress⟩ | ⟨loop, first, v, rest, herror, hsplit, hfails, hprogress⟩ :=
        (progress_nil sys mgr.m_proxyManager attr_name formula_data.m_evaluation_modes).registerVars formula_data.vars
      · rw [hok]
        refine iff_of_true (by simp) ?_
        intro first v rest hsplit hfails
        refine (hfails.not_reached fun p hv => hprogress.reached v ?_ p hv).elim
        simp [hsplit]
      · rw [herror]
        have hunchanged : ({ mgr with m_proxyManager := unregister loop } : FormulaManager) = mgr
            ↔ unregister loop = mgr.m_proxyManager := by
          constructor
          · exact fun heq => congrArg FormulaManager.m_proxyManager heq
          · intro heq
            rw [heq]
        simp only [forall_const]
        rw [hunchanged, hprogress.unregister_eq_iff]
        constructor
        · intro hspares first' v' rest' hsplit' hfails'
          rw [← hfails.unique (hsplit.symm.trans hsplit') hfails']
          exact hspares
        · exact fun hall => hall first v rest hsplit hfails

/-- A formula whose second proxy is not in the database. -/
def trackingFormula : FormulaData where
  m_formula := "res := pointing and locked;"
  m_symbols := (∅ : FormulaSymbols).insert "locked" ⟨0, "locked", .eATTR_VALUE, some "mid/spfc/0"⟩
    |>.insert "pointing" ⟨1, "pointing", .eATTR_VALUE, some "mid/unknown/0"⟩
  m_evaluation_modes := [.change]

def trackingSystem : TangoSystem where
  now := 0
  connect proxy_name := if proxy_name = "mid/unknown/0" then none else some .noResponse
  get_attribute_config _ _ := none
  make_shared _ _ _ := 0

/-- The device has subscribed to the first attribute itself. -/
def trackingManager : FormulaManager where
  m_proxyManager := ⟨(∅ : Std.ExtTreeMap String TangoProxyHelper).insert "mid/spfc/0"
    { m_proxy_name := "mid/spfc/0"
      m_is_initialized := true
      m_evtSubscriptions := [⟨7, ⟨"mid/spfc/0", "locked", .change, 3, true, [], none⟩⟩] }⟩
  m_attrFormulaMap := ∅
  m_eventAttrsMap := []

/-- The subscription of the device goes. -/
theorem not_unchanged_tracking :
    (registerFormula trackingSystem trackingManager "tracking" (some trackingFormula)).1 = -1
      ∧ (registerFormula trackingSystem trackingManager "tracking" (some trackingFormula)).2
        ≠ trackingManager := by
  refine ⟨by decide +kernel, ?_⟩
  intro hunchanged
  have hbefore : (trackingManager.m_proxyManager.findEvtSubscription "mid/spfc/0" "locked"
      .change).isSome = true := by decide +kernel
  have hafter : ((registerFormula trackingSystem trackingManager "tracking"
      (some trackingFormula)).2.m_proxyManager.findEvtSubscription "mid/spfc/0" "locked"
      .change).isSome = false := by decide +kernel
  rw [hunchanged, hbefore] at hafter
  cases hafter

end FormulaManager

end DshLmc
