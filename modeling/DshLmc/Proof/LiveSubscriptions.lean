import DshLmc.Library.Run
import DshLmc.Proof.Subscriptions
import DshLmc.Utils.ProxyThreads

/-!
# When the subscriptions of a proxy match its registry

A live subscription that no entry of the registry stores cannot be unsubscribed any more. The steps
that lead there are those of a thread that subscribes for an entry that has left the registry or
for an event that is served already, and the removal of an entry that a thread subscribes for or
that could not be unsubscribed.
-/

namespace DshLmc

def eventPair (attr_name : String) (event_type : EventType) : List Char × EventType :=
  (lowerChars attr_name, event_type)

def EvtSubscriptionDataPtr.pair (ptr : EvtSubscriptionDataPtr) : List Char × EventType :=
  eventPair ptr.obj.attr_name ptr.obj.event_type

def ProxySubscription.pair (sub : ProxySubscription) : List Char × EventType :=
  eventPair sub.attr_name sub.event_type

namespace SubscribeToEvent

/-- The object that a thread points to, and what it is for. -/
def pointer : SubscribeToEvent → Option (Nat × List Char × EventType)
  | .outside => none
  | .checked attr_name event_type ptr => some (ptr, eventPair attr_name event_type)
  | .subscribed attr_name event_type ptr _ => some (ptr, eventPair attr_name event_type)

/-- The subscription that a thread has made and not stored, and the object it will be stored in. -/
def held : SubscribeToEvent → Option (Nat × ProxySubscription)
  | .subscribed attr_name event_type ptr subscriptionId =>
      some (ptr, ⟨subscriptionId, attr_name, event_type⟩)
  | _ => none

theorem pointer_of_held {position : SubscribeToEvent} {address : Nat} {sub : ProxySubscription}
    (h : position.held = some (address, sub)) : position.pointer = some (address, sub.pair) := by
  cases position with
  | outside => contradiction
  | checked => contradiction
  | subscribed attr_name event_type ptr subscriptionId =>
      obtain ⟨rfl, rfl⟩ := Prod.mk.inj (Option.some.inj h)
      rfl

end SubscribeToEvent

namespace ProxyThreads

abbrev entries (s : ProxyThreads) : List EvtSubscriptionDataPtr := s.helper.m_evtSubscriptions

/-- No event has two entries or two live subscriptions, and every live subscription is stored in an
entry, or a thread that has just made it will store it in one. -/
structure Matches (s : ProxyThreads) : Prop where
  registry : (s.entries.map (·.pair)).Nodup
  live : (s.live.map (·.pair)).Nodup
  stored : ∀ sub ∈ s.live,
    (∃ ptr ∈ s.entries, ptr.obj.is_subscribed = true ∧ ptr.obj.subscription_id = sub.id)
    ∨ ∃ thread, ∃ ptr ∈ s.entries, (s.threads thread).held = some (ptr.address, sub)

/-- The condition on a step: a thread subscribes only for an entry that is still registered and an
event that is not served, and an entry is removed only when no thread has just subscribed for it and
unsubscribing it does not fail. -/
def Allowed (s : ProxyThreads) : ProxyStep → Prop
  | .subscribe_event thread succeeds => succeeds = true → ∀ attr_name event_type address,
      s.threads thread = .checked attr_name event_type address →
        (∃ ptr ∈ s.entries, ptr.address = address)
          ∧ eventPair attr_name event_type ∉ s.live.map (·.pair)
  | .removeEventSubscription attr_name event_type succeeds => ∀ ptr,
      s.helper.find_event_subscription attr_name event_type = some ptr →
        (ptr.obj.is_subscribed = true → succeeds = true)
          ∧ ∀ thread sub, (s.threads thread).held ≠ some (ptr.address, sub)
  | _ => True

/-- What `find_event_subscription` relies on. Objects keep their addresses and what they are for. -/
structure Registered (s : ProxyThreads) : Prop where
  device : ∀ ptr ∈ s.entries, ptr.obj.device_name = s.helper.m_proxy_name
  pairs : (s.entries.map (·.pair)).Nodup
  addresses : (s.entries.map (·.address)).Nodup
  fresh : ∀ ptr ∈ s.entries, ptr.address < s.next_address
  pointers : ∀ thread address pair, (s.threads thread).pointer = some (address, pair) →
    address < s.next_address ∧ ∀ ptr ∈ s.entries, ptr.address = address → ptr.pair = pair

section Finding

variable {s : ProxyThreads} {attr_name : String} {event_type : EventType}
  {ptr : EvtSubscriptionDataPtr}

theorem mem_of_find (h : s.helper.find_event_subscription attr_name event_type = some ptr) :
    ptr ∈ s.entries ∧ ptr.pair = eventPair attr_name event_type := by
  refine ⟨List.mem_of_find?_eq_some h, ?_⟩
  have hkey := TangoProxyHelper.isFor_iff.mp (List.find?_some h)
  obtain ⟨hattr, _, htype⟩ : _ ∧ _ ∧ _ := by
    simpa [EvtSubscriptionDataPtr.key, EvtSubscriptionData.key, TangoProxyHelper.keyFor] using hkey
  simp [EvtSubscriptionDataPtr.pair, eventPair, hattr, htype]

theorem Registered.eq_of_pair (h : Registered s) {p q : EvtSubscriptionDataPtr}
    (hp : p ∈ s.entries) (hq : q ∈ s.entries) (hpair : p.pair = q.pair) : p = q :=
  List.inj_on_of_nodup_map h.pairs hp hq hpair

theorem Registered.eq_of_address (h : Registered s) {p q : EvtSubscriptionDataPtr}
    (hp : p ∈ s.entries) (hq : q ∈ s.entries) (haddress : p.address = q.address) : p = q :=
  List.inj_on_of_nodup_map h.addresses hp hq haddress

theorem Registered.not_mem_of_find_eq_none (h : Registered s)
    (hfind : s.helper.find_event_subscription attr_name event_type = none) :
    eventPair attr_name event_type ∉ s.entries.map (·.pair) := by
  rw [List.mem_map]
  rintro ⟨ptr, hptr, hpair⟩
  have hfor : s.helper.isFor attr_name event_type ptr = true := by
    rw [TangoProxyHelper.isFor_iff]
    obtain ⟨hattr, htype⟩ := Prod.mk.inj hpair
    simp [EvtSubscriptionDataPtr.key, EvtSubscriptionData.key, TangoProxyHelper.keyFor, hattr,
      htype, h.device ptr hptr]
  exact List.find?_eq_none.mp hfind ptr hptr hfor

theorem Registered.mem_remove_iff (h : Registered s)
    (hfind : s.helper.find_event_subscription attr_name event_type = some ptr)
    {q : EvtSubscriptionDataPtr} :
    q ∈ (s.helper.removeEventSubscription attr_name event_type).m_evtSubscriptions
      ↔ q ∈ s.entries ∧ q ≠ ptr := by
  obtain ⟨hptr, hpair⟩ := mem_of_find hfind
  have hkeys : (s.entries.map EvtSubscriptionDataPtr.key).Nodup := by
    refine List.Nodup.of_map (fun key => (key.1, key.2.2)) ?_
    rw [List.map_map]
    exact h.pairs
  have hkey : ptr.key = s.helper.keyFor attr_name event_type :=
    TangoProxyHelper.isFor_iff.mp (List.find?_some hfind)
  rw [TangoProxyHelper.removeEventSubscription_eq, mem_removeKey_iff hkeys, ← hkey]
  refine and_congr_right fun hq => not_congr ?_
  constructor
  · exact fun heq => List.inj_on_of_nodup_map hkeys hq hptr heq
  · exact congrArg EvtSubscriptionDataPtr.key

end Finding

def frame (ptr : EvtSubscriptionDataPtr) : Nat × (List Char × EventType) × String :=
  (ptr.address, ptr.pair, ptr.obj.device_name)

theorem exists_mem_of_sublist {s s' : ProxyThreads}
    (hentries : (s'.entries.map frame).Sublist (s.entries.map frame))
    {ptr : EvtSubscriptionDataPtr} (hptr : ptr ∈ s'.entries) :
    ∃ q ∈ s.entries, q.address = ptr.address ∧ q.pair = ptr.pair
      ∧ q.obj.device_name = ptr.obj.device_name := by
  obtain ⟨q, hq, hframe⟩ := List.mem_map.mp (hentries.subset (List.mem_map_of_mem hptr))
  obtain ⟨haddress, hrest⟩ := Prod.mk.inj hframe
  obtain ⟨hpair, hdevice⟩ := Prod.mk.inj hrest
  exact ⟨q, hq, haddress, hpair, hdevice⟩

theorem Registered.of_sublist {s s' : ProxyThreads} (h : Registered s)
    (hname : s'.helper.m_proxy_name = s.helper.m_proxy_name)
    (hentries : (s'.entries.map frame).Sublist (s.entries.map frame))
    (hnext : s.next_address ≤ s'.next_address)
    (hpointers : ∀ thread x, (s'.threads thread).pointer = some x →
      (s.threads thread).pointer = some x) : Registered s' where
  device := by
    intro ptr hptr
    obtain ⟨q, hq, _, _, hdevice⟩ := exists_mem_of_sublist hentries hptr
    rw [hname, ← hdevice]
    exact h.device q hq
  pairs := by
    have hpairs := hentries.map (·.2.1)
    rw [List.map_map, List.map_map] at hpairs
    exact h.pairs.sublist hpairs
  addresses := by
    have haddresses := hentries.map (·.1)
    rw [List.map_map, List.map_map] at haddresses
    exact h.addresses.sublist haddresses
  fresh := by
    intro ptr hptr
    obtain ⟨q, hq, haddress, _⟩ := exists_mem_of_sublist hentries hptr
    have hfresh := h.fresh q hq
    omega
  pointers := by
    intro thread address pair hpointer
    obtain ⟨hfresh, hpairs⟩ := h.pointers thread address pair (hpointers thread _ hpointer)
    refine ⟨by omega, ?_⟩
    intro ptr hptr hptrAddress
    obtain ⟨q, hq, haddress, hpair, _⟩ := exists_mem_of_sublist hentries hptr
    rw [← hpair]
    exact hpairs q hq (haddress.trans hptrAddress)

theorem modifyAt_congr {helper : TangoProxyHelper} {address : Nat}
    {f g : EvtSubscriptionData → EvtSubscriptionData}
    (h : ∀ ptr ∈ helper.m_evtSubscriptions, ptr.address = address → f ptr.obj = g ptr.obj) :
    helper.modifyAt address f = helper.modifyAt address g := by
  rw [TangoProxyHelper.modifyAt, TangoProxyHelper.modifyAt]
  congr 1
  refine List.map_congr_left fun ptr hptr => ?_
  split
  case isTrue haddress => rw [h ptr hptr haddress]
  case isFalse => rfl

@[simp]
theorem modifyAt_id (helper : TangoProxyHelper) (address : Nat) :
    helper.modifyAt address id = helper := by
  simp [TangoProxyHelper.modifyAt]

theorem map_frame_modifyAt (helper : TangoProxyHelper) (address : Nat)
    (change : EvtSubscriptionData → EvtSubscriptionData)
    (hattr : ∀ data, (change data).attr_name = data.attr_name)
    (htype : ∀ data, (change data).event_type = data.event_type)
    (hdevice : ∀ data, (change data).device_name = data.device_name) :
    (helper.modifyAt address change).m_evtSubscriptions.map frame
      = helper.m_evtSubscriptions.map frame := by
  rw [TangoProxyHelper.modifyAt, List.map_map]
  refine List.map_congr_left fun ptr hptr => ?_
  by_cases haddress : ptr.address = address
  · simp [frame, EvtSubscriptionDataPtr.pair, haddress, hattr, htype, hdevice]
  · simp [haddress]

/-- `UnsubscribeEvent` changes nothing or takes the id of a subscribed entry away. -/
theorem Registered.unsubscribeEvent_cases {s : ProxyThreads} (h : Registered s)
    (attr_name : String) (event_type : EventType) (succeeds : Bool) :
    s.unsubscribeEvent attr_name event_type succeeds = s
      ∨ ∃ ptr, s.helper.find_event_subscription attr_name event_type = some ptr
        ∧ ptr.obj.is_subscribed = true
        ∧ s.unsubscribeEvent attr_name event_type succeeds
          = { s with
              helper := s.helper.modifyAt ptr.address EvtSubscriptionData.setUnsubscribed
              live := s.live.filter fun sub => sub.id ≠ ptr.obj.subscription_id } := by
  rw [unsubscribeEvent]
  cases hfind : s.helper.find_event_subscription attr_name event_type with
  | none => exact Or.inl rfl
  | some ptr =>
      have hptr : ptr ∈ s.entries := (mem_of_find hfind).1
      have hat : ∀ data, data = ptr.obj → ∀ change : EvtSubscriptionData → EvtSubscriptionData,
          s.helper.modifyAt ptr.address (fun _ => change data)
            = s.helper.modifyAt ptr.address change := by
        rintro data rfl change
        refine modifyAt_congr fun q hq haddress => ?_
        rw [h.eq_of_address hq hptr haddress]
      cases hsubscribed : ptr.obj.is_subscribed with
      | false =>
          left
          have hsame := hat ptr.obj rfl id
          rw [modifyAt_id] at hsame
          simp only [id_eq] at hsame
          simp [TangoProxyHelper.unsubscribe_event, hsubscribed, liveWithout, hsame]
      | true =>
          cases succeeds with
          | false => exact Or.inl (by simp [TangoProxyHelper.unsubscribe_event, hsubscribed])
          | true =>
              refine Or.inr ⟨ptr, rfl, hsubscribed, ?_⟩
              have hsame := hat ptr.obj rfl EvtSubscriptionData.setUnsubscribed
              simp [TangoProxyHelper.unsubscribe_event, hsubscribed, liveWithout, hsame]

theorem threads_moveTo (s : ProxyThreads) (thread : Nat) (position : SubscribeToEvent)
    (other : Nat) :
    (s.moveTo thread position).threads other
      = if other = thread then position else s.threads other :=
  rfl

/-! ### What the steps of `SubscribeToEvent` do -/

section Cases

variable (s : ProxyThreads) (thread : Nat)

def withSubscription (attr_name : String) (event_type : EventType) (address : Nat) :
    ProxyThreads :=
  { s.moveTo thread (.subscribed attr_name event_type address s.next_id) with
    live := s.live ++ [⟨s.next_id, attr_name, event_type⟩]
    next_id := s.next_id + 1 }

@[simp]
theorem next_id_withSubscription (attr_name : String) (event_type : EventType) (address : Nat) :
    (s.withSubscription thread attr_name event_type address).next_id = s.next_id + 1 :=
  rfl

theorem threads_withSubscription (attr_name : String) (event_type : EventType) (address : Nat)
    (other : Nat) :
    (s.withSubscription thread attr_name event_type address).threads other
      = if other = thread then .subscribed attr_name event_type address s.next_id
        else s.threads other :=
  rfl

def withStored (address : Nat) (subscriptionId : Int) (attr_info : Option AttributeInfoEx) :
    ProxyThreads :=
  { s.moveTo thread .outside with
    helper := s.helper.modifyAt address fun data =>
      { data.setSubscribed subscriptionId with
        event_attr_info := data.event_attr_info.or attr_info } }

theorem threads_withStored (address : Nat) (subscriptionId : Int)
    (attr_info : Option AttributeInfoEx) (other : Nat) :
    (s.withStored thread address subscriptionId attr_info).threads other
      = if other = thread then .outside else s.threads other :=
  rfl

theorem findSubscription_cases (attr_name : String) (event_type : EventType) :
    s.findSubscription thread attr_name event_type = s
      ∨ ∃ ptr, s.threads thread = .outside
        ∧ s.helper.find_event_subscription attr_name event_type = some ptr
        ∧ s.findSubscription thread attr_name event_type
          = s.moveTo thread (.checked attr_name event_type ptr.address) := by
  rw [findSubscription]
  cases hthread : s.threads thread with
  | outside =>
      cases hfind : s.helper.find_event_subscription attr_name event_type with
      | none => exact Or.inl rfl
      | some ptr =>
          cases hptrs : ptr.obj.is_subscribed with
          | true => exact Or.inl (if_pos hptrs)
          | false => exact Or.inr ⟨ptr, rfl, rfl, if_neg (by simp [hptrs])⟩
  | checked => exact Or.inl rfl
  | subscribed => exact Or.inl rfl

theorem subscribe_event_cases (succeeds : Bool) :
    s.subscribe_event thread succeeds = s
      ∨ ∃ attr_name event_type address, s.threads thread = .checked attr_name event_type address
        ∧ s.subscribe_event thread succeeds
          = if succeeds then s.withSubscription thread attr_name event_type address
            else s.moveTo thread .outside := by
  rw [subscribe_event]
  cases hthread : s.threads thread with
  | outside => exact Or.inl rfl
  | checked attr_name event_type address => exact Or.inr ⟨_, _, _, rfl, rfl⟩
  | subscribed => exact Or.inl rfl

theorem setSubscribed_cases (attr_info : Option AttributeInfoEx) :
    s.setSubscribed thread attr_info = s
      ∨ ∃ attr_name event_type address subscriptionId,
        s.threads thread = .subscribed attr_name event_type address subscriptionId
        ∧ s.setSubscribed thread attr_info
          = s.withStored thread address subscriptionId attr_info := by
  rw [setSubscribed]
  cases hthread : s.threads thread with
  | outside => exact Or.inl rfl
  | checked => exact Or.inl rfl
  | subscribed attr_name event_type address subscriptionId =>
      exact Or.inr ⟨_, _, _, _, rfl, rfl⟩

end Cases

theorem Registered.moveTo {s : ProxyThreads} (h : Registered s) {thread : Nat}
    {position : SubscribeToEvent}
    (hposition : ∀ address pair, position.pointer = some (address, pair) →
      address < s.next_address ∧ ∀ ptr ∈ s.entries, ptr.address = address → ptr.pair = pair) :
    Registered (s.moveTo thread position) := by
  refine ⟨h.device, h.pairs, h.addresses, h.fresh, ?_⟩
  intro other address pair hpointer
  rw [threads_moveTo] at hpointer
  by_cases hother : other = thread
  · exact hposition address pair (by simpa [hother] using hpointer)
  · exact h.pointers other address pair (by simpa [hother] using hpointer)

theorem Registered.add {s : ProxyThreads} (h : Registered s) (attr_name : String)
    (event_type : EventType) (attr_info : Option AttributeInfoEx) :
    Registered (s.addEventSubscription attr_name event_type attr_info) := by
  rw [addEventSubscription, TangoProxyHelper.addEventSubscription]
  cases hfind : s.helper.find_event_subscription attr_name event_type with
  | some ptr =>
      exact h.of_sublist rfl (List.Sublist.refl _) (Nat.le_succ _) fun _ _ hx => hx
  | none =>
      have hnew := h.not_mem_of_find_eq_none hfind
      have hfresh : s.next_address ∉ s.entries.map (·.address) := by
        rw [List.mem_map]
        rintro ⟨ptr, hptr, heq⟩
        have hlt := h.fresh ptr hptr
        omega
      constructor
      · intro ptr hptr
        obtain hold | hptr := List.mem_append.mp hptr
        · exact h.device ptr hold
        · rw [List.mem_singleton.mp hptr]
      · exact nodup_map_append_singleton h.pairs hnew
      · exact nodup_map_append_singleton h.addresses hfresh
      · intro ptr hptr
        obtain hold | hptr := List.mem_append.mp hptr
        · exact Nat.lt_succ_of_lt (h.fresh ptr hold)
        · rw [List.mem_singleton.mp hptr]
          exact Nat.lt_succ_self _
      · intro thread address pair hpointer
        obtain ⟨hlt, hpairs⟩ := h.pointers thread address pair hpointer
        refine ⟨Nat.lt_succ_of_lt hlt, ?_⟩
        intro ptr hptr haddress
        obtain hold | hptr := List.mem_append.mp hptr
        · exact hpairs ptr hold haddress
        · rw [List.mem_singleton.mp hptr] at haddress
          exact absurd haddress (Nat.ne_of_gt hlt)

theorem Registered.step {s : ProxyThreads} (h : Registered s) (i : ProxyStep) :
    Registered (s.step i) := by
  cases i with
  | addEventSubscription attr_name event_type attr_info => exact h.add attr_name event_type attr_info
  | removeEventSubscription attr_name event_type succeeds =>
      rw [ProxyThreads.step, ProxyThreads.removeEventSubscription]
      split
      · exact h
      · exact h.of_sublist rfl (List.eraseP_sublist.map frame) (Nat.le_refl _) fun _ _ hx => hx
  | unsubscribeEvent attr_name event_type succeeds =>
      rw [ProxyThreads.step]
      obtain heq | ⟨ptr, _, _, heq⟩ := h.unsubscribeEvent_cases attr_name event_type succeeds
      · rwa [heq]
      · have hframes := map_frame_modifyAt s.helper ptr.address EvtSubscriptionData.setUnsubscribed
          (fun _ => rfl) (fun _ => rfl) fun _ => rfl
        rw [heq]
        exact h.of_sublist rfl (hframes ▸ List.Sublist.refl _) (Nat.le_refl _) fun _ _ hx => hx
  | findSubscription thread attr_name event_type =>
      rw [ProxyThreads.step]
      obtain heq | ⟨ptr, _, hfind, heq⟩ := s.findSubscription_cases thread attr_name event_type
      · rwa [heq]
      · rw [heq]
        obtain ⟨hptr, hpair⟩ := mem_of_find hfind
        refine h.moveTo ?_
        intro address pair hpointer
        obtain ⟨rfl, rfl⟩ := Prod.mk.inj (Option.some.inj hpointer)
        refine ⟨h.fresh ptr hptr, ?_⟩
        intro q hq haddress
        rw [h.eq_of_address hq hptr haddress, hpair]
  | subscribe_event thread succeeds =>
      rw [ProxyThreads.step]
      rcases s.subscribe_event_cases thread succeeds with heq | ⟨attr_name, event_type, address,
        hthread, heq⟩
      · rwa [heq]
      · rw [heq]
        split
        · refine Registered.of_sublist (s := s.moveTo thread
            (.subscribed attr_name event_type address s.next_id)) (h.moveTo ?_) rfl
            (List.Sublist.refl _) (Nat.le_refl _) fun _ _ hx => hx
          intro address' pair hx
          obtain ⟨rfl, rfl⟩ := Prod.mk.inj (Option.some.inj hx)
          exact h.pointers thread address _ (by rw [hthread]; rfl)
        · exact h.moveTo fun _ _ hx => by contradiction
  | setSubscribed thread attr_info =>
      rw [ProxyThreads.step]
      obtain heq | ⟨_, _, address, subscriptionId, _, heq⟩ := s.setSubscribed_cases thread attr_info
      · rwa [heq]
      · have hmove : Registered (s.moveTo thread .outside) := h.moveTo fun _ _ hx => by contradiction
        have hframes := map_frame_modifyAt s.helper address (fun data =>
          { data.setSubscribed subscriptionId with
            event_attr_info := data.event_attr_info.or attr_info })
          (fun _ => rfl) (fun _ => rfl) fun _ => rfl
        rw [heq]
        exact hmove.of_sublist rfl (hframes ▸ List.Sublist.refl _) (Nat.le_refl _) fun _ _ hx => hx

/-- No id is given twice, and none is held by two threads. -/
structure Identified (s : ProxyThreads) : Prop where
  ids : (s.live.map (·.id)).Nodup
  freshIds : ∀ sub ∈ s.live, sub.id < s.next_id
  held : ∀ thread address sub, (s.threads thread).held = some (address, sub) → sub.id < s.next_id
  holders : ∀ thread thread' address address' sub,
    (s.threads thread).held = some (address, sub) →
    (s.threads thread').held = some (address', sub) → thread = thread'

theorem Identified.eq_of_id {s : ProxyThreads} (h : Identified s) {p q : ProxySubscription}
    (hp : p ∈ s.live) (hq : q ∈ s.live) (hid : p.id = q.id) : p = q :=
  List.inj_on_of_nodup_map h.ids hp hq hid

/-- A step that only ends subscriptions and lets go of ids. -/
theorem Identified.of_sublist {s s' : ProxyThreads} (h : Identified s)
    (hlive : s'.live.Sublist s.live) (hnext : s'.next_id = s.next_id)
    (hheld : ∀ thread x, (s'.threads thread).held = some x → (s.threads thread).held = some x) :
    Identified s' where
  ids := h.ids.sublist (hlive.map _)
  freshIds := by
    intro sub hsub
    rw [hnext]
    exact h.freshIds sub (hlive.subset hsub)
  held := by
    intro thread address sub hx
    rw [hnext]
    exact h.held thread address sub (hheld thread _ hx)
  holders := by
    intro thread thread' address address' sub hx hx'
    exact h.holders thread thread' address address' sub (hheld thread _ hx) (hheld thread' _ hx')

theorem held_moveTo {s : ProxyThreads} {thread : Nat} {position : SubscribeToEvent}
    (hposition : position.held = none) (other : Nat) (x : Nat × ProxySubscription)
    (h : ((s.moveTo thread position).threads other).held = some x) :
    other ≠ thread ∧ (s.threads other).held = some x := by
  rw [threads_moveTo] at h
  by_cases hother : other = thread
  · simp [hother, hposition] at h
  · exact ⟨hother, by simpa [hother] using h⟩

theorem liveWithout_sublist (s : ProxyThreads) (data : EvtSubscriptionData) (succeeds : Bool) :
    (s.liveWithout data succeeds).Sublist s.live := by
  rw [liveWithout]
  split
  · exact List.filter_sublist
  · exact List.Sublist.refl _

theorem held_moveTo_subscribed {s : ProxyThreads} {thread other : Nat} {attr_name : String}
    {event_type : EventType} {ptr address : Nat} {sub : ProxySubscription}
    (h : ((s.moveTo thread (.subscribed attr_name event_type ptr s.next_id)).threads other).held
      = some (address, sub)) :
    (other = thread ∧ address = ptr ∧ sub = ⟨s.next_id, attr_name, event_type⟩)
      ∨ (other ≠ thread ∧ (s.threads other).held = some (address, sub)) := by
  rw [threads_moveTo] at h
  by_cases hother : other = thread
  · left
    rw [if_pos hother] at h
    obtain ⟨rfl, rfl⟩ := Prod.mk.inj (Option.some.inj h)
    exact ⟨hother, rfl, rfl⟩
  · exact Or.inr ⟨hother, by simpa [hother] using h⟩

theorem Identified.subscribe {s : ProxyThreads} (h : Identified s) (thread : Nat)
    (attr_name : String) (event_type : EventType) (ptr : Nat) :
    Identified (s.withSubscription thread attr_name event_type ptr) where
  ids := by
    refine nodup_map_append_singleton h.ids ?_
    rw [List.mem_map]
    rintro ⟨sub, hsub, heq⟩
    exact absurd (h.freshIds sub hsub) (by simp [heq])
  freshIds := by
    intro sub hsub
    rw [next_id_withSubscription]
    obtain hold | hnew := List.mem_append.mp hsub
    · have hlt := h.freshIds sub hold
      omega
    · rw [List.mem_singleton.mp hnew]
      exact Int.lt_succ s.next_id
  held := by
    intro other address sub hx
    rw [next_id_withSubscription]
    obtain ⟨_, _, rfl⟩ | ⟨_, hold⟩ := held_moveTo_subscribed hx
    · exact Int.lt_succ s.next_id
    · have hlt := h.held other address sub hold
      omega
  holders := by
    intro other other' address address' sub hx hx'
    obtain ⟨rfl, _, rfl⟩ | ⟨_, hold⟩ := held_moveTo_subscribed hx
    · obtain ⟨rfl, _, _⟩ | ⟨_, hold'⟩ := held_moveTo_subscribed hx'
      · rfl
      · exact absurd (h.held _ _ _ hold') (lt_irrefl _)
    · obtain ⟨rfl, _, rfl⟩ | ⟨_, hold'⟩ := held_moveTo_subscribed hx'
      · exact absurd (h.held _ _ _ hold) (lt_irrefl _)
      · exact h.holders _ _ _ _ _ hold hold'

theorem Identified.step {s : ProxyThreads} (hreg : Registered s) (h : Identified s)
    (i : ProxyStep) : Identified (s.step i) := by
  cases i with
  | addEventSubscription attr_name event_type attr_info =>
      exact h.of_sublist (List.Sublist.refl _) rfl fun _ _ hx => hx
  | removeEventSubscription attr_name event_type succeeds =>
      rw [ProxyThreads.step, removeEventSubscription]
      split
      · exact h
      · exact h.of_sublist (liveWithout_sublist s _ _) rfl fun _ _ hx => hx
  | unsubscribeEvent attr_name event_type succeeds =>
      rw [ProxyThreads.step]
      obtain heq | ⟨ptr, _, _, heq⟩ := hreg.unsubscribeEvent_cases attr_name event_type succeeds
      · rwa [heq]
      · rw [heq]
        exact h.of_sublist List.filter_sublist rfl fun _ _ hx => hx
  | findSubscription thread attr_name event_type =>
      rw [ProxyThreads.step]
      obtain heq | ⟨ptr, _, _, heq⟩ := s.findSubscription_cases thread attr_name event_type
      · rwa [heq]
      · rw [heq]
        exact h.of_sublist (List.Sublist.refl _) rfl fun other x hx =>
          (held_moveTo rfl other x hx).2
  | subscribe_event thread succeeds =>
      rw [ProxyThreads.step]
      rcases s.subscribe_event_cases thread succeeds with heq | ⟨attr_name, event_type, address,
        _, heq⟩
      · rwa [heq]
      · rw [heq]
        split
        · exact h.subscribe thread attr_name event_type address
        · exact h.of_sublist (List.Sublist.refl _) rfl fun other x hx =>
            (held_moveTo rfl other x hx).2
  | setSubscribed thread attr_info =>
      rw [ProxyThreads.step]
      obtain heq | ⟨_, _, _, _, _, heq⟩ := s.setSubscribed_cases thread attr_info
      · rwa [heq]
      · rw [heq]
        exact h.of_sublist (List.Sublist.refl _) rfl fun other x hx =>
          (held_moveTo rfl other x hx).2

/-! ### The match -/

/-- A registry in order whose subscribed entries have the ids of live subscriptions, and a thread
that holds an id will store it in an entry that has none. -/
structure Matched (s : ProxyThreads) : Prop extends Registered s, Identified s where
  live : (s.live.map (·.pair)).Nodup
  subscribed : ∀ ptr ∈ s.entries, ptr.obj.is_subscribed = true →
    ∃ sub ∈ s.live, sub.id = ptr.obj.subscription_id ∧ sub.pair = ptr.pair
  holds : ∀ thread address sub, (s.threads thread).held = some (address, sub) →
    sub ∈ s.live ∧ ∃ ptr ∈ s.entries, ptr.address = address ∧ ptr.obj.is_subscribed = false
  stored : ∀ sub ∈ s.live,
    (∃ ptr ∈ s.entries, ptr.obj.is_subscribed = true ∧ ptr.obj.subscription_id = sub.id)
    ∨ ∃ thread address, (s.threads thread).held = some (address, sub)

theorem matched_initial (proxy_name : String) : Matched (initial proxy_name) := by
  have hregistered : Registered (initial proxy_name) := by
    constructor <;> simp [entries, initial, TangoProxyHelper.new, SubscribeToEvent.pointer]
  have hidentified : Identified (initial proxy_name) := by
    constructor <;> simp [initial, SubscribeToEvent.held]
  refine ⟨hregistered, hidentified, ?_, ?_, ?_, ?_⟩ <;>
    simp [entries, initial, TangoProxyHelper.new, SubscribeToEvent.held]

namespace Matched

variable {s : ProxyThreads}

theorem toMatches (h : Matched s) : Matches s := by
  refine ⟨h.pairs, h.live, ?_⟩
  intro sub hsub
  refine (h.stored sub hsub).imp_right ?_
  rintro ⟨thread, address, hheld⟩
  obtain ⟨_, ptr, hptr, rfl, _⟩ := h.holds thread address sub hheld
  exact ⟨thread, ptr, hptr, hheld⟩

theorem eq_of_subscription_id (h : Matched s) {p q : EvtSubscriptionDataPtr}
    (hp : p ∈ s.entries) (hq : q ∈ s.entries) (hps : p.obj.is_subscribed = true)
    (hqs : q.obj.is_subscribed = true)
    (hid : p.obj.subscription_id = q.obj.subscription_id) : p = q := by
  obtain ⟨sub, hsub, hsubId, hsubPair⟩ := h.subscribed p hp hps
  obtain ⟨sub', hsub', hsubId', hsubPair'⟩ := h.subscribed q hq hqs
  obtain rfl : sub = sub' := h.eq_of_id hsub hsub' (by rw [hsubId, hsubId', hid])
  exact h.eq_of_pair hp hq (hsubPair.symm.trans hsubPair')

theorem pair_of_held (h : Matched s) {thread : Nat} {sub : ProxySubscription}
    {ptr : EvtSubscriptionDataPtr} (hptr : ptr ∈ s.entries)
    (hheld : (s.threads thread).held = some (ptr.address, sub)) : ptr.pair = sub.pair :=
  (h.pointers thread ptr.address sub.pair (SubscribeToEvent.pointer_of_held hheld)).2 ptr hptr rfl

theorem subscription_id_ne_of_held (h : Matched s) {thread address : Nat}
    {sub : ProxySubscription} (hheld : (s.threads thread).held = some (address, sub))
    {p : EvtSubscriptionDataPtr} (hp : p ∈ s.entries) (hps : p.obj.is_subscribed = true) :
    p.obj.subscription_id ≠ sub.id := by
  intro hid
  obtain ⟨hsub, ptr, hptr, rfl, hptrs⟩ := h.holds thread address sub hheld
  obtain ⟨sub', hsub', hsubId, hsubPair⟩ := h.subscribed p hp hps
  obtain rfl : sub' = sub := h.eq_of_id hsub' hsub (hsubId.trans hid)
  obtain rfl : ptr = p := h.eq_of_pair hptr hp ((h.pair_of_held hptr hheld).trans hsubPair)
  simp [hps] at hptrs

end Matched

theorem mem_liveWithout_iff {s : ProxyThreads} {data : EvtSubscriptionData}
    {sub : ProxySubscription} :
    sub ∈ s.liveWithout data true
      ↔ sub ∈ s.live ∧ (data.is_subscribed = true → data.subscription_id ≠ sub.id) := by
  rw [liveWithout, Bool.and_true]
  split
  case isTrue hsubscribed =>
    rw [List.mem_filter, decide_eq_true_iff]
    refine and_congr_right fun _ => ?_
    exact ⟨fun h _ => Ne.symm h, fun h => Ne.symm (h hsubscribed)⟩
  case isFalse hsubscribed => simp [hsubscribed]

/-- An entry goes, or loses its id, together with its subscription. -/
theorem Matched.drop {s s' : ProxyThreads} (h : Matched s) (hreg : Registered s')
    (hid : Identified s') {ptr : EvtSubscriptionDataPtr} (hptr : ptr ∈ s.entries)
    (hlive : s'.live = s.liveWithout ptr.obj true) (hthreads : s'.threads = s.threads)
    (hheld : ∀ thread sub, (s.threads thread).held ≠ some (ptr.address, sub))
    (hold : ∀ q ∈ s'.entries, q.obj.is_subscribed = true → q ∈ s.entries ∧ q ≠ ptr)
    (hkept : ∀ q ∈ s.entries, q ≠ ptr → q ∈ s'.entries) : Matched s' where
  toRegistered := hreg
  toIdentified := hid
  live := by
    rw [hlive]
    exact h.live.sublist ((liveWithout_sublist s ptr.obj true).map _)
  subscribed := by
    intro q hq hqs
    obtain ⟨hqold, hne⟩ := hold q hq hqs
    obtain ⟨sub, hsub, hsubId, hsubPair⟩ := h.subscribed q hqold hqs
    refine ⟨sub, ?_, hsubId, hsubPair⟩
    rw [hlive, mem_liveWithout_iff]
    refine ⟨hsub, fun hptrs heq => hne ?_⟩
    exact h.eq_of_subscription_id hqold hptr hqs hptrs (hsubId.symm.trans heq.symm)
  holds := by
    intro thread address sub hx
    rw [hthreads] at hx
    obtain ⟨hsub, p, hp, rfl, hps⟩ := h.holds thread address sub hx
    have hne : p ≠ ptr := by
      rintro rfl
      exact hheld thread sub hx
    refine ⟨?_, p, hkept p hp hne, rfl, hps⟩
    rw [hlive, mem_liveWithout_iff]
    exact ⟨hsub, fun hptrs => h.subscription_id_ne_of_held hx hptr hptrs⟩
  stored := by
    intro sub hsub
    rw [hlive, mem_liveWithout_iff] at hsub
    rw [hthreads]
    refine (h.stored sub hsub.1).imp_left ?_
    rintro ⟨p, hp, hps, hpid⟩
    have hne : p ≠ ptr := by
      rintro rfl
      exact hsub.2 hps hpid
    exact ⟨p, hkept p hp hne, hps, hpid⟩

namespace Matched

variable {s : ProxyThreads}

theorem move (h : Matched s) {thread : Nat} {position : SubscribeToEvent}
    (hreg : Registered (s.moveTo thread position)) (hid : Identified (s.moveTo thread position))
    (hthread : (s.threads thread).held = none) (hposition : position.held = none) :
    Matched (s.moveTo thread position) where
  toRegistered := hreg
  toIdentified := hid
  live := h.live
  subscribed := h.subscribed
  holds := fun other address sub hx => h.holds other address sub (held_moveTo hposition other _ hx).2
  stored := by
    intro sub hsub
    refine (h.stored sub hsub).imp_right ?_
    rintro ⟨other, address, hx⟩
    refine ⟨other, address, ?_⟩
    have hne : other ≠ thread := by
      rintro rfl
      simp [hthread] at hx
    rwa [threads_moveTo, if_neg hne]

theorem add (h : Matched s) (attr_name : String) (event_type : EventType)
    (attr_info : Option AttributeInfoEx) :
    Matched (s.addEventSubscription attr_name event_type attr_info) := by
  have hreg := h.toRegistered.add attr_name event_type attr_info
  have hid := h.toIdentified.step h.toRegistered
    (.addEventSubscription attr_name event_type attr_info)
  have hentries : ∃ new : List EvtSubscriptionDataPtr,
      (s.addEventSubscription attr_name event_type attr_info).entries = s.entries ++ new
        ∧ ∀ ptr ∈ new, ptr.obj.is_subscribed = false := by
    rw [entries, addEventSubscription, TangoProxyHelper.addEventSubscription]
    split
    · exact ⟨[], by simp, by simp⟩
    · exact ⟨_, rfl, by simp⟩
  obtain ⟨new, hentries, hnew⟩ := hentries
  refine ⟨hreg, hid, h.live, ?_, ?_, ?_⟩
  · intro ptr hptr hptrs
    rw [hentries, List.mem_append] at hptr
    refine h.subscribed ptr (hptr.resolve_right fun hmem => ?_) hptrs
    simp [hnew ptr hmem] at hptrs
  · intro thread address sub hx
    obtain ⟨hsub, ptr, hptr, haddress, hptrs⟩ := h.holds thread address sub hx
    refine ⟨hsub, ptr, ?_, haddress, hptrs⟩
    rw [hentries]
    exact List.mem_append_left _ hptr
  · intro sub hsub
    refine (h.stored sub hsub).imp_left ?_
    rintro ⟨ptr, hptr, hrest⟩
    refine ⟨ptr, ?_, hrest⟩
    rw [hentries]
    exact List.mem_append_left _ hptr

theorem remove (h : Matched s) {attr_name : String} {event_type : EventType} {succeeds : Bool}
    (hallowed : Allowed s (.removeEventSubscription attr_name event_type succeeds)) :
    Matched (s.removeEventSubscription attr_name event_type succeeds) := by
  have hreg := h.toRegistered.step (.removeEventSubscription attr_name event_type succeeds)
  have hid := h.toIdentified.step h.toRegistered
    (.removeEventSubscription attr_name event_type succeeds)
  rw [ProxyThreads.step, removeEventSubscription] at hreg hid
  rw [removeEventSubscription]
  cases hfind : s.helper.find_event_subscription attr_name event_type with
  | none => exact h
  | some ptr =>
      obtain ⟨hsucceeds, hheld⟩ := hallowed ptr hfind
      rw [hfind] at hreg hid
      have hlive : s.liveWithout ptr.obj succeeds = s.liveWithout ptr.obj true := by
        rw [liveWithout, liveWithout]
        cases hptrs : ptr.obj.is_subscribed with
        | false => rfl
        | true => rw [hsucceeds hptrs]
      refine h.drop hreg hid (mem_of_find hfind).1 hlive rfl hheld ?_ ?_
      · intro q hq _
        exact (h.mem_remove_iff hfind).mp hq
      · intro q hq hne
        exact (h.mem_remove_iff hfind).mpr ⟨hq, hne⟩

theorem unsubscribe (h : Matched s) (attr_name : String) (event_type : EventType)
    (succeeds : Bool) : Matched (s.unsubscribeEvent attr_name event_type succeeds) := by
  have hreg := h.toRegistered.step (.unsubscribeEvent attr_name event_type succeeds)
  have hid := h.toIdentified.step h.toRegistered (.unsubscribeEvent attr_name event_type succeeds)
  rw [ProxyThreads.step] at hreg hid
  obtain heq | ⟨ptr, hfind, hptrs, heq⟩ := h.unsubscribeEvent_cases attr_name event_type succeeds
  · rwa [heq]
  · rw [heq] at hreg hid ⊢
    have hptr := (mem_of_find hfind).1
    refine h.drop hreg hid hptr (by simp [liveWithout, hptrs]) rfl ?_ ?_ ?_
    · intro thread sub hx
      obtain ⟨_, p, hp, haddress, hps⟩ := h.holds thread ptr.address sub hx
      obtain rfl : p = ptr := h.eq_of_address hp hptr haddress
      simp [hptrs] at hps
    · intro q hq hqs
      obtain ⟨p, hp, rfl⟩ := List.mem_map.mp hq
      split at hqs
      case isTrue haddress => simp [EvtSubscriptionData.setUnsubscribed] at hqs
      case isFalse haddress =>
        rw [if_neg haddress]
        exact ⟨hp, fun hne => haddress (congrArg _ hne)⟩
    · intro q hq hne
      have haddress : q.address ≠ ptr.address := fun heq => hne (h.eq_of_address hq hptr heq)
      exact List.mem_map.mpr ⟨q, hq, if_neg haddress⟩

/-- The subscription of a thread whose entry is registered and not served. -/
theorem subscribe (h : Matched s) {thread : Nat} {attr_name : String} {event_type : EventType}
    {address : Nat} (hthread : s.threads thread = .checked attr_name event_type address)
    (hreg : Registered (s.withSubscription thread attr_name event_type address))
    (hentry : ∃ ptr ∈ s.entries, ptr.address = address)
    (hnew : eventPair attr_name event_type ∉ s.live.map (·.pair)) :
    Matched (s.withSubscription thread attr_name event_type address) := by
  refine ⟨hreg, h.toIdentified.subscribe thread attr_name event_type address,
    nodup_map_append_singleton h.live hnew, ?_, ?_, ?_⟩
  · intro ptr hptr hptrs
    obtain ⟨sub, hsub, hrest⟩ := h.subscribed ptr hptr hptrs
    exact ⟨sub, List.mem_append_left _ hsub, hrest⟩
  · intro other address' sub hx
    obtain ⟨rfl, rfl, rfl⟩ | ⟨_, hold⟩ := held_moveTo_subscribed hx
    · refine ⟨List.mem_append_right _ (List.mem_singleton.mpr rfl), ?_⟩
      obtain ⟨ptr, hptr, rfl⟩ := hentry
      refine ⟨ptr, hptr, rfl, ?_⟩
      cases hptrs : ptr.obj.is_subscribed with
      | false => rfl
      | true =>
          obtain ⟨sub, hsub, _, hpair⟩ := h.subscribed ptr hptr hptrs
          have hptrPair : ptr.pair = eventPair attr_name event_type :=
            (h.pointers other ptr.address _ (by rw [hthread]; rfl)).2 ptr hptr rfl
          exact absurd (List.mem_map.mpr ⟨sub, hsub, hpair.trans hptrPair⟩) hnew
    · obtain ⟨hsub, hptr⟩ := h.holds other address' sub hold
      exact ⟨List.mem_append_left _ hsub, hptr⟩
  · intro sub hsub
    obtain hold | hsub := List.mem_append.mp hsub
    · refine (h.stored sub hold).imp_right ?_
      rintro ⟨other, address', hx⟩
      refine ⟨other, address', ?_⟩
      have hne : other ≠ thread := by
        rintro rfl
        simp [hthread, SubscribeToEvent.held] at hx
      rwa [threads_withSubscription, if_neg hne]
    · refine Or.inr ⟨thread, address, ?_⟩
      rw [List.mem_singleton.mp hsub, threads_withSubscription, if_pos rfl]
      rfl

theorem setSubscribed (h : Matched s) {thread : Nat} {attr_name : String}
    {event_type : EventType} {address : Nat} {subscriptionId : Int}
    (hthread : s.threads thread = .subscribed attr_name event_type address subscriptionId)
    {attr_info : Option AttributeInfoEx}
    (hreg : Registered (s.withStored thread address subscriptionId attr_info))
    (hid : Identified (s.withStored thread address subscriptionId attr_info)) :
    Matched (s.withStored thread address subscriptionId attr_info) := by
  have hheld : (s.threads thread).held
      = some (address, ⟨subscriptionId, attr_name, event_type⟩) := by
    rw [hthread]
    rfl
  obtain ⟨hsub, ptr, hptr, rfl, hptrs⟩ := h.holds thread address _ hheld
  have hpair := h.pair_of_held hptr hheld
  have hkept : ∀ q ∈ s.entries, q ≠ ptr → q.address ≠ ptr.address :=
    fun q hq hne heq => hne (h.eq_of_address hq hptr heq)
  refine ⟨hreg, hid, h.live, ?_, ?_, ?_⟩
  · intro q hq hqs
    obtain ⟨p, hp, rfl⟩ := List.mem_map.mp hq
    by_cases haddress : p.address = ptr.address
    · obtain rfl : p = ptr := h.eq_of_address hp hptr haddress
      rw [if_pos rfl]
      exact ⟨_, hsub, rfl, hpair.symm⟩
    · rw [if_neg haddress] at hqs ⊢
      exact h.subscribed p hp hqs
  · intro other address' sub hx
    obtain ⟨hne, hold⟩ := held_moveTo rfl other _ hx
    obtain ⟨hsub', p, hp, rfl, hps⟩ := h.holds other address' sub hold
    refine ⟨hsub', p, ?_, rfl, hps⟩
    have hpne : p ≠ ptr := by
      rintro rfl
      have heq := List.inj_on_of_nodup_map h.live hsub' hsub
        ((h.pair_of_held hp hold).symm.trans hpair)
      subst heq
      exact hne (h.holders other thread _ _ _ hold hheld)
    exact List.mem_map.mpr ⟨p, hp, if_neg (hkept p hp hpne)⟩
  · intro sub hsub'
    obtain ⟨p, hp, hps, hpid⟩ | ⟨other, address', hx⟩ := h.stored sub hsub'
    · have hpne : p ≠ ptr := by
        rintro rfl
        simp [hptrs] at hps
      exact Or.inl ⟨p, List.mem_map.mpr ⟨p, hp, if_neg (hkept p hp hpne)⟩, hps, hpid⟩
    · by_cases hother : other = thread
      · subst hother
        obtain ⟨_, rfl⟩ := Prod.mk.inj (Option.some.inj (hheld.symm.trans hx))
        exact Or.inl ⟨_, List.mem_map.mpr ⟨ptr, hptr, if_pos rfl⟩, rfl, rfl⟩
      · refine Or.inr ⟨other, address', ?_⟩
        rwa [threads_withStored, if_neg hother]

theorem step (h : Matched s) (i : ProxyStep) (hallowed : Allowed s i) : Matched (s.step i) := by
  have hreg := h.toRegistered.step i
  have hid := h.toIdentified.step h.toRegistered i
  cases i with
  | addEventSubscription attr_name event_type attr_info => exact h.add attr_name event_type attr_info
  | removeEventSubscription attr_name event_type succeeds => exact h.remove hallowed
  | unsubscribeEvent attr_name event_type succeeds =>
      exact h.unsubscribe attr_name event_type succeeds
  | findSubscription thread attr_name event_type =>
      rw [ProxyThreads.step] at *
      obtain heq | ⟨ptr, hthread, _, heq⟩ := s.findSubscription_cases thread attr_name event_type
      · rwa [heq]
      · rw [heq] at hreg hid ⊢
        exact h.move hreg hid (by rw [hthread]; rfl) rfl
  | subscribe_event thread succeeds =>
      rw [ProxyThreads.step] at *
      rcases s.subscribe_event_cases thread succeeds with heq | ⟨attr_name, event_type, address,
        hthread, heq⟩
      · rwa [heq]
      · rw [heq] at hreg hid ⊢
        cases succeeds with
        | false => exact h.move hreg hid (by rw [hthread]; rfl) rfl
        | true =>
            obtain ⟨hentry, hnew⟩ := hallowed rfl attr_name event_type address hthread
            exact h.subscribe hthread hreg hentry hnew
  | setSubscribed thread attr_info =>
      rw [ProxyThreads.step] at *
      obtain heq | ⟨_, _, _, _, hthread, heq⟩ := s.setSubscribed_cases thread attr_info
      · rwa [heq]
      · rw [heq] at hreg hid ⊢
        exact h.setSubscribed hthread hreg hid

/-- An entry is removed whose id stays live, or that a thread has subscribed for. -/
theorem not_matches_remove (h : Matched s) {attr_name : String} {event_type : EventType}
    {succeeds : Bool}
    (hallowed : ¬ Allowed s (.removeEventSubscription attr_name event_type succeeds)) :
    ¬ Matches (s.removeEventSubscription attr_name event_type succeeds) := by
  intro hmatches
  apply hallowed
  intro ptr hfind
  have hptr := (mem_of_find hfind).1
  rw [removeEventSubscription, hfind] at hmatches
  constructor
  · intro hptrs
    by_contra hfails
    have hlive : s.liveWithout ptr.obj succeeds = s.live := by
      rw [liveWithout, Bool.eq_false_iff.mpr hfails, Bool.and_false]
      rfl
    obtain ⟨sub, hsub, hsubId, _⟩ := h.subscribed ptr hptr hptrs
    rw [← hlive] at hsub
    obtain ⟨q, hq, hqs, hqid⟩ | ⟨thread, q, _, hheld⟩ := hmatches.stored sub hsub
    · obtain ⟨hqold, hne⟩ := (h.mem_remove_iff hfind).mp hq
      exact hne (h.eq_of_subscription_id hqold hptr hqs hptrs (hqid.trans hsubId))
    · exact h.subscription_id_ne_of_held hheld hptr hptrs hsubId.symm
  · intro thread sub hheld
    obtain ⟨hsub, p, hp, haddress, hps⟩ := h.holds thread ptr.address sub hheld
    obtain rfl : p = ptr := h.eq_of_address hp hptr haddress
    have hlive : s.liveWithout p.obj succeeds = s.live := by
      rw [liveWithout, hps, Bool.false_and]
      rfl
    rw [← hlive] at hsub
    obtain ⟨q, hq, hqs, hqid⟩ | ⟨thread', q, hq, hheld'⟩ := hmatches.stored sub hsub
    · exact h.subscription_id_ne_of_held hheld ((h.mem_remove_iff hfind).mp hq).1 hqs hqid
    · obtain ⟨hqold, hne⟩ := (h.mem_remove_iff hfind).mp hq
      obtain rfl : thread' = thread := h.holders thread' thread _ _ sub hheld' hheld
      have heq := Option.some.inj (hheld'.symm.trans hheld)
      exact hne (h.eq_of_address hqold hptr (Prod.mk.inj heq).1)

/-- A thread subscribes for an entry that is gone or an event that is served. -/
theorem not_matches_subscribe (h : Matched s) {thread : Nat} {attr_name : String}
    {event_type : EventType} {address : Nat}
    (hallowed : ¬ ((∃ ptr ∈ s.entries, ptr.address = address)
      ∧ eventPair attr_name event_type ∉ s.live.map (·.pair))) :
    ¬ Matches (s.withSubscription thread attr_name event_type address) := by
  intro hmatches
  apply hallowed
  constructor
  · obtain ⟨q, hq, hqs, hqid⟩ | ⟨other, q, hq, hheld⟩ :=
      hmatches.stored ⟨s.next_id, attr_name, event_type⟩ (List.mem_append_right _ (List.mem_singleton.mpr rfl))
    · obtain ⟨sub, hsub, hsubId, _⟩ := h.subscribed q hq hqs
      exact absurd (h.freshIds sub hsub) (by simp [hsubId, hqid])
    · obtain ⟨_, haddress, _⟩ | ⟨_, hold⟩ := held_moveTo_subscribed hheld
      · exact ⟨q, hq, haddress⟩
      · exact absurd (h.held other _ _ hold) (lt_irrefl _)
  · have hnodup := hmatches.live
    rw [withSubscription, List.map_append, List.nodup_append'] at hnodup
    exact fun hmem => hnodup.2.2 hmem (List.mem_singleton.mpr rfl)

end Matched

theorem Matched.not_matches_step {s : ProxyThreads} (h : Matched s) (i : ProxyStep)
    (hallowed : ¬ Allowed s i) : ¬ Matches (s.step i) := by
  cases i with
  | removeEventSubscription attr_name event_type succeeds => exact h.not_matches_remove hallowed
  | subscribe_event thread succeeds =>
      rw [ProxyThreads.step]
      simp only [Allowed, not_forall] at hallowed
      obtain ⟨rfl, attr_name, event_type, address, hthread, hallowed⟩ := hallowed
      have heq : s.subscribe_event thread true
          = s.withSubscription thread attr_name event_type address := by
        rw [subscribe_event, hthread]
        rfl
      rw [heq]
      exact h.not_matches_subscribe hallowed
  | _ => exact absurd trivial hallowed

/-- **When the subscriptions match the registry.** In every state of a run they do, exactly when all
steps of the run meet the condition. -/
theorem matches_iff_allowed (proxy_name : String) (history : List ProxyStep) :
    (∀ past, past <+: history → Matches (run step (initial proxy_name) past))
      ↔ Along step Allowed (initial proxy_name) history :=
  forall_prefix_iff_along (fun _ h => h.toMatches) (fun _ i h _ hi => h.step i hi)
    (fun _ i h _ hi => h.not_matches_step i hi) (matched_initial proxy_name)
    (along_of_forall_mem fun _ _ => trivial)

def removedHistory : List ProxyStep :=
  [.addEventSubscription "pointing" .change none, .findSubscription 0 "pointing" .change,
    .removeEventSubscription "pointing" .change true, .subscribe_event 0 true,
    .setSubscribed 0 none]

/-- All threads have returned, and no entry stores the id of the subscription. -/
theorem not_matches_removed :
    (∀ thread, (run step (initial "mid/spfc/0") removedHistory).threads thread = .outside)
      ∧ ¬ Matches (run step (initial "mid/spfc/0") removedHistory) := by
  constructor
  · intro thread
    cases thread with
    | zero => rfl
    | succ n => rfl
  · intro hmatches
    have hentries : (run step (initial "mid/spfc/0") removedHistory).entries = [] := by
      decide +kernel
    have hlive : (run step (initial "mid/spfc/0") removedHistory).live
        = [⟨0, "pointing", .change⟩] := by decide +kernel
    have hstored := hmatches.stored ⟨0, "pointing", .change⟩ (by simp [hlive])
    simp [hentries] at hstored

end ProxyThreads

end DshLmc
