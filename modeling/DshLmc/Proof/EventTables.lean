import DshLmc.Alarm.EventTable
import DshLmc.Library.Run
import DshLmc.Proof.SignalTallies

/-!
# What the loops over the event table do

Linking an alarm adds the events that are missing, lists the alarm on each event as often as its
formula names it, and starts them. Unlinking takes the alarm off each event once, and an event that
lists no alarm any more leaves the table. The names of the events differ without the domain all the
while, and the counters are those of the events.
-/

namespace DshLmc

namespace EventTable

variable {t t' : EventTable} {n s : List Char} {evn removed : List (List Char)}

def names (t : EventTable) : List (List Char) := t.v_event.map AlarmEvent.name

/-- No two names are the same without the domain. -/
def Distinct (t : EventTable) : Prop := (t.v_event.map fun e => removeDomain e.name).Nodup

theorem Distinct.nodup (h : t.Distinct) : t.names.Nodup := by
  refine List.Nodup.of_map removeDomain ?_
  rwa [names, List.map_map]

theorem names_eq_of_map {f : AlarmEvent → AlarmEvent} (hv : t'.v_event = t.v_event.map f)
    (hf : ∀ e, (f e).name = e.name) : t'.names = t.names := by
  rw [names, hv, List.map_map]
  exact List.map_congr_left fun e _ => hf e

theorem name_ite {c : AlarmEvent → AlarmEvent} (hc : ∀ e, (c e).name = e.name) (e : AlarmEvent) :
    (if e.name = s then c e else e).name = e.name := by
  split_ifs
  · exact hc e
  · rfl

theorem find_eq_none_iff : t.find s = none ↔ s ∉ t.names := findIdx?_key_eq_none_iff

theorem exists_find (h : s ∈ t.names) : ∃ i, t.find s = some i :=
  Option.ne_none_iff_exists'.mp fun hnone => find_eq_none_iff.mp hnone h

theorem get_signal_of_find {i : Nat} (h : t.find s = some i) : t.get_signal s = some i := by
  have hfind : (t.v_event.findIdx? fun e => e.name == s) = some i := h
  rw [get_signal, findSignal, hfind]
  rfl

theorem add_eq_ok (h : t.add s = .ok t') :
    t'.v_event = t.v_event ++ [AlarmEvent.added s] ∧ '/' ∈ s
      ∧ ∀ e ∈ t.v_event, removeDomain e.name ≠ removeDomain s := by
  unfold add at h
  split_ifs at h with hfound hslash
  rw [← Except.ok.inj h]
  refine ⟨rfl, hslash, findSignal_eq_none_iff.mp ?_⟩
  exact Option.not_isSome_iff_eq_none.mp hfound

theorem v_event_onEvent (h : t.names.Nodup) {i : Nat} (hi : t.find s = some i)
    (change : AlarmEvent → AlarmEvent) (counters : SignalCounters → SignalFlags → SignalCounters) :
    ∃ t', t.onEvent s change counters = .ok t'
      ∧ t'.v_event = t.v_event.map fun e => if e.name = s then change e else e := by
  rw [onEvent, get_signal_of_find hi]
  exact ⟨_, rfl, modify_findIdx?_eq_map h hi change⟩

/-! ### The loops of `add_event` -/

/-- What the first loop leaves. -/
structure Filled (t : EventTable) (evn : List (List Char))
    (res : EventTable × Except (List Char) Unit) : Prop where
  added : ∃ new : List (List Char), res.1.v_event = t.v_event ++ new.map AlarmEvent.added
    ∧ ∀ s ∈ new, s ∈ evn ∧ '/' ∈ s
  distinct : res.1.Distinct
  ok : res.2 = .ok () → ∀ s ∈ evn, s ∈ res.1.names
  error : res.2 ≠ .ok () → ∃ s ∈ evn, s ∉ res.1.names

theorem Filled.mem_event {res : EventTable × Except (List Char) Unit} (h : Filled t evn res)
    {e : AlarmEvent} (he : e ∈ t.v_event) : e ∈ res.1.v_event := by
  obtain ⟨new, hnew, -⟩ := h.added
  rw [hnew]
  exact List.mem_append_left _ he

theorem Filled.mem_names {res : EventTable × Except (List Char) Unit} (h : Filled t evn res)
    (hs : s ∈ t.names) : s ∈ res.1.names := by
  obtain ⟨e, he, rfl⟩ := List.mem_map.mp hs
  exact List.mem_map_of_mem (h.mem_event he)

theorem filled_addMissing (h : t.Distinct) (evn : List (List Char)) :
    Filled t evn (t.addMissing evn) := by
  induction evn generalizing t with
  | nil =>
      have hsame : (t.addMissing []).1.v_event = t.v_event ++ [] := (List.append_nil _).symm
      refine ⟨⟨[], hsame, List.forall_mem_nil _⟩, h, fun _ => List.forall_mem_nil _, ?_⟩
      exact fun hne => absurd rfl hne
  | cons s evn ih =>
      rw [addMissing]
      by_cases hs : s ∈ t.names
      · obtain ⟨i, hi⟩ := exists_find hs
        rw [if_pos (by rw [hi]; rfl)]
        have hfilled := ih h
        obtain ⟨new, hnew, hmem⟩ := hfilled.added
        refine ⟨⟨new, hnew, fun s' hs' => ?_⟩, hfilled.distinct, fun hok => ?_, fun hne => ?_⟩
        · exact ⟨List.mem_cons_of_mem _ (hmem s' hs').1, (hmem s' hs').2⟩
        · exact List.forall_mem_cons.mpr ⟨hfilled.mem_names hs, hfilled.ok hok⟩
        · obtain ⟨s', hs', hnot⟩ := hfilled.error hne
          exact ⟨s', List.mem_cons_of_mem _ hs', hnot⟩
      · have hnone : ¬ (t.find s).isSome = true := by
          rw [find_eq_none_iff.mpr hs]
          exact Bool.false_ne_true
        rw [if_neg hnone]
        cases hadd : t.add s with
        | error e =>
            refine ⟨⟨[], by simp, List.forall_mem_nil _⟩, h, fun hok => (by cases hok), fun _ => ?_⟩
            exact ⟨s, List.mem_cons_self, hs⟩
        | ok t' =>
            obtain ⟨hv, hslash, hother⟩ := add_eq_ok hadd
            have hdistinct : t'.Distinct := by
              rw [Distinct, hv]
              refine nodup_map_append_singleton h fun hmem => ?_
              obtain ⟨e, he, heq⟩ := List.mem_map.mp hmem
              exact hother e he heq
            have hfilled := ih hdistinct
            obtain ⟨new, hnew, hmem⟩ := hfilled.added
            refine ⟨⟨s :: new, ?_, ?_⟩, hfilled.distinct, fun hok => ?_, fun hne => ?_⟩
            · rw [hnew, hv, List.append_assoc]
              rfl
            · refine List.forall_mem_cons.mpr ⟨⟨List.mem_cons_self, hslash⟩, fun s' hs' => ?_⟩
              exact ⟨List.mem_cons_of_mem _ (hmem s' hs').1, (hmem s' hs').2⟩
            · refine List.forall_mem_cons.mpr ⟨hfilled.mem_names ?_, hfilled.ok hok⟩
              simp [names, hv, AlarmEvent.added]
            · obtain ⟨s', hs', hnot⟩ := hfilled.error hne
              exact ⟨s', List.mem_cons_of_mem _ hs', hnot⟩

def pushed (n : List Char) (evn : List (List Char)) (e : AlarmEvent) : AlarmEvent :=
  { e with m_alarm := e.m_alarm ++ List.replicate (evn.count e.name) n }

theorem v_event_link (h : t.names.Nodup) (n s : List Char) :
    (t.link n s).v_event = t.v_event.map (pushed n [s]) := by
  have hone : pushed n [s] = fun e => if e.name = s then e.push_alarm n else e := by
    funext e
    by_cases hs : e.name = s
    · simp [pushed, AlarmEvent.push_alarm, hs]
    · simp [pushed, hs, Ne.symm hs]
  rw [hone, link]
  cases hi : t.find s with
  | none => exact (map_ite_key_eq_self (find_eq_none_iff.mp hi) _).symm
  | some i => exact modify_findIdx?_eq_map h hi _

theorem v_event_foldl_link (h : t.names.Nodup) (n : List Char) (evn : List (List Char)) :
    (evn.foldl (link n) t).v_event = t.v_event.map (pushed n evn) := by
  induction evn generalizing t with
  | nil =>
      have hid : pushed n [] = id := by
        funext e
        simp [pushed]
      rw [hid, List.map_id]
      rfl
  | cons s evn ih =>
      have hnames : (t.link n s).names = t.names :=
        names_eq_of_map (v_event_link h n s) fun _ => rfl
      have hboth : pushed n evn ∘ pushed n [s] = pushed n (s :: evn) := by
        funext e
        simp only [Function.comp_apply, pushed, List.append_assoc, List.replicate_append_replicate,
          List.count_cons, List.count_nil, Nat.zero_add, Nat.add_comm]
      rw [List.foldl_cons, ih (hnames ▸ h), v_event_link h, List.map_map, hboth]

def startedIn (evn : List (List Char)) (e : AlarmEvent) : AlarmEvent :=
  if evn.contains e.name then e.start else e

theorem startedIn_name (evn : List (List Char)) (e : AlarmEvent) :
    (startedIn evn e).name = e.name := by
  unfold startedIn
  split_ifs <;> rfl

theorem startedIn_m_alarm (evn : List (List Char)) (e : AlarmEvent) :
    (startedIn evn e).m_alarm = e.m_alarm := by
  unfold startedIn
  split_ifs <;> rfl

theorem running_start (e : AlarmEvent) : e.start.running = true := by
  rcases e with ⟨⟨running, paused, stopped⟩, name, m_alarm⟩
  cases running <;> rfl

theorem start_start (e : AlarmEvent) : e.start.start = e.start := by
  rcases e with ⟨⟨running, paused, stopped⟩, name, m_alarm⟩
  cases running <;> rfl

theorem v_event_started (h : t.names.Nodup) (s : List Char) :
    (t.started s).v_event = t.v_event.map (startedIn [s]) := by
  have hone : startedIn [s] = fun e => if e.name = s then e.start else e := by
    funext e
    simp [startedIn]
  rw [hone, started]
  cases hi : t.find s with
  | none => exact (map_ite_key_eq_self (find_eq_none_iff.mp hi) _).symm
  | some i =>
      obtain ⟨t', hok, hv⟩ := v_event_onEvent h hi AlarmEvent.start SignalCounters.start
      rw [if_pos Option.isSome_some, start, hok]
      exact hv

theorem v_event_foldl_started (h : t.names.Nodup) (evn : List (List Char)) :
    (evn.foldl started t).v_event = t.v_event.map (startedIn evn) := by
  induction evn generalizing t with
  | nil =>
      have hid : startedIn [] = id := by
        funext e
        simp [startedIn]
      rw [hid, List.map_id]
      rfl
  | cons s evn ih =>
      have hnames : (t.started s).names = t.names :=
        names_eq_of_map (v_event_started h s) (startedIn_name [s])
      have hboth : startedIn evn ∘ startedIn [s] = startedIn (s :: evn) := by
        funext e
        simp only [Function.comp_apply, startedIn, List.contains_iff_mem, List.mem_cons,
          List.not_mem_nil, or_false]
        by_cases hs : e.name = s
        · have hname : e.start.name = e.name := rfl
          simp [hs, start_start, hname]
        · simp [hs]
      rw [List.foldl_cons, ih (hnames ▸ h), v_event_started h, List.map_map, hboth]

/-- Every new name is one of an attribute, and no other name is the same without the domain. -/
def Accepts (t : EventTable) (evn : List (List Char)) : Prop :=
  ∀ s ∈ evn, s ∉ t.names → '/' ∈ s
    ∧ ∀ s' ∈ t.names ++ evn, removeDomain s' = removeDomain s → s' = s

theorem add_ok (hslash : '/' ∈ s) (hother : ∀ e ∈ t.v_event, removeDomain e.name ≠ removeDomain s) :
    ∃ t', t.add s = .ok t' ∧ t'.v_event = t.v_event ++ [AlarmEvent.added s] := by
  have hnone : t.get_signal s = none := findSignal_eq_none_iff.mpr hother
  have hfound : ¬ (t.get_signal s).isSome = true := by
    rw [hnone]
    exact Bool.false_ne_true
  rw [add, if_neg hfound, if_neg (not_not.mpr hslash)]
  exact ⟨_, rfl, rfl⟩

theorem addMissing_ok (h : t.Accepts evn) : (t.addMissing evn).2 = .ok () := by
  induction evn generalizing t with
  | nil => rfl
  | cons s evn ih =>
      have hsub : ∀ s' ∈ t.names ++ evn, s' ∈ t.names ++ s :: evn := fun s' hs' =>
        (List.mem_append.mp hs').elim (List.mem_append_left _)
          fun hmem => List.mem_append_right _ (List.mem_cons_of_mem _ hmem)
      rw [addMissing]
      by_cases hs : s ∈ t.names
      · obtain ⟨i, hi⟩ := exists_find hs
        rw [if_pos (by rw [hi]; rfl)]
        refine ih fun s' hs' hnot => ?_
        obtain ⟨hslash, hother⟩ := h s' (List.mem_cons_of_mem _ hs') hnot
        exact ⟨hslash, fun s'' hs'' => hother s'' (hsub s'' hs'')⟩
      · obtain ⟨hslash, hother⟩ := h s List.mem_cons_self hs
        have hdomain : ∀ e ∈ t.v_event, removeDomain e.name ≠ removeDomain s := by
          intro e he heq
          have hname : e.name ∈ t.names := List.mem_map_of_mem he
          exact hs (hother e.name (List.mem_append_left _ hname) heq ▸ hname)
        obtain ⟨t', hadd, hv⟩ := add_ok hslash hdomain
        have hnames : t'.names = t.names ++ [s] := by
          rw [names, hv, List.map_append]
          rfl
        rw [if_neg (by rw [find_eq_none_iff.mpr hs]; exact Bool.false_ne_true), hadd]
        refine ih fun s' hs' hnot => ?_
        rw [hnames, List.mem_append, not_or] at hnot
        obtain ⟨hslash', hother'⟩ := h s' (List.mem_cons_of_mem _ hs') hnot.1
        refine ⟨hslash', fun s'' hs'' => hother' s'' ?_⟩
        rw [hnames, List.append_assoc] at hs''
        exact hs''

theorem accepts_of_ok (h : t.Distinct) (hok : (t.addMissing evn).2 = .ok ()) : t.Accepts evn := by
  intro s hs hnot
  have hfilled := filled_addMissing h evn
  obtain ⟨new, hnew, hmem⟩ := hfilled.added
  have hnames : (t.addMissing evn).1.names = t.names ++ new := by
    rw [names, hnew, List.map_append, List.map_map]
    exact congrArg _ (List.map_id new)
  have hsnew : s ∈ new := by
    have hall := hfilled.ok hok s hs
    rw [hnames] at hall
    exact (List.mem_append.mp hall).resolve_left hnot
  refine ⟨(hmem s hsnew).2, fun s' hs' heq => ?_⟩
  have hs'' : s' ∈ (t.addMissing evn).1.names :=
    (List.mem_append.mp hs').elim hfilled.mem_names (hfilled.ok hok s')
  obtain ⟨e, he, rfl⟩ := List.mem_map.mp (hfilled.ok hok s hs)
  obtain ⟨e', he', rfl⟩ := List.mem_map.mp hs''
  rw [List.inj_on_of_nodup_map hfilled.distinct he' he heq]

def relinked (n : List Char) (removed : List (List Char)) (e : AlarmEvent) : Option AlarmEvent :=
  if removed.contains e.name then if e.m_alarm.erase n = [] then none else some (e.pop_alarm n)
  else some e

theorem relinked_eq_some_iff {e e' : AlarmEvent} :
    relinked n removed e = some e' ↔ (e.name ∈ removed ∧ e.m_alarm.erase n ≠ [] ∧ e.pop_alarm n = e')
      ∨ (e.name ∉ removed ∧ e = e') := by
  simp only [relinked, List.contains_iff_mem]
  split_ifs with hmem hempty <;> simp [*]

theorem relinked_name {e e' : AlarmEvent} (h : relinked n removed e = some e') :
    e'.name = e.name := by
  obtain ⟨-, -, rfl⟩ | ⟨-, rfl⟩ := relinked_eq_some_iff.mp h
  · rfl
  · rfl

theorem drop_ok (h : t.names.Nodup) (hs : s ∈ t.names) :
    ∃ t', t.drop s = (t', .ok ()) ∧ t'.v_event = t.v_event.filter fun e => e.name ≠ s := by
  obtain ⟨i, hi⟩ := exists_find hs
  obtain ⟨t₁, hstop, hv₁⟩ := v_event_onEvent h hi AlarmEvent.stop SignalCounters.stop
  have hnames : t₁.names = t.names := names_eq_of_map hv₁ (name_ite fun _ => rfl)
  have hnodup : t₁.names.Nodup := hnames ▸ h
  obtain ⟨j, hj⟩ := exists_find (hnames ▸ hs)
  have hremove : ∃ t₂, t₁.remove s = .ok t₂ ∧ t₂.v_event = t₁.v_event.eraseIdx j := by
    rw [remove, get_signal_of_find hj]
    exact ⟨_, rfl, rfl⟩
  obtain ⟨t₂, hok, hv₂⟩ := hremove
  refine ⟨t₂, ?_, ?_⟩
  · rw [drop, stop, hstop]
    dsimp only
    rw [hok]
  · rw [hv₂, eraseIdx_findIdx?_eq_filter hnodup hj, hv₁, List.filter_map]
    have hsame : ((fun e : AlarmEvent => decide (e.name ≠ s)) ∘
        fun e => if e.name = s then e.stop else e) = fun e => decide (e.name ≠ s) := by
      funext e
      dsimp only [Function.comp_apply]
      split_ifs <;> rfl
    rw [hsame]
    refine (List.map_congr_left fun e he => if_neg ?_).trans (List.map_id' _)
    simpa using (List.mem_filter.mp he).2

theorem unlinkOne_ok (h : t.names.Nodup) (hs : s ∈ t.names) (n : List Char) :
    ∃ t', t.unlinkOne n s = (t', .ok ())
      ∧ t'.v_event = t.v_event.filterMap (relinked n [s]) := by
  obtain ⟨i, hi⟩ := exists_find hs
  obtain ⟨hlt, hname, -⟩ := List.findIdx?_eq_some_iff_getElem.mp hi
  have honly : ∀ e ∈ t.v_event, e.name = s → e = t.v_event[i] := fun e he heq =>
    List.inj_on_of_nodup_map h he (List.getElem_mem hlt) (heq.trans (beq_iff_eq.mp hname).symm)
  set t₁ : EventTable := { t with v_event := t.v_event.modify i (AlarmEvent.pop_alarm n) } with ht₁
  have hpop : t₁.v_event = t.v_event.map fun e => if e.name = s then e.pop_alarm n else e :=
    modify_findIdx?_eq_map h hi _
  have hnames : t₁.names = t.names := names_eq_of_map hpop (name_ite fun _ => rfl)
  have hat : t₁.v_event[i]? = some (t.v_event[i].pop_alarm n) := by
    simp [ht₁, hlt]
  rw [unlinkOne, hi]
  change ∃ t', (if t₁.v_event[i]?.any fun e => e.m_alarm.isEmpty then t₁.drop s else (t₁, .ok ()))
    = (t', .ok ()) ∧ _
  rw [hat, Option.any_some]
  by_cases hempty : (t.v_event[i].pop_alarm n).m_alarm.isEmpty = true
  · rw [if_pos hempty]
    obtain ⟨t₂, hdrop, hv⟩ := drop_ok (hnames ▸ h) (hnames ▸ hs)
    refine ⟨t₂, hdrop, ?_⟩
    rw [hv, hpop, ← List.filterMap_eq_filter, List.filterMap_map]
    refine List.filterMap_congr fun e he => ?_
    by_cases heq : e.name = s
    · have hnil : e.m_alarm.erase n = [] := by
        rw [honly e he heq]
        exact List.isEmpty_iff.mp hempty
      simp [relinked, Option.guard, heq, hnil, AlarmEvent.pop_alarm]
    · simp [relinked, Option.guard, heq]
  · rw [if_neg hempty]
    refine ⟨t₁, rfl, ?_⟩
    rw [hpop, ← List.filterMap_eq_map]
    refine List.filterMap_congr fun e he => ?_
    by_cases heq : e.name = s
    · have hleft : e.m_alarm.erase n ≠ [] := by
        rw [honly e he heq]
        exact fun hnil => hempty (List.isEmpty_iff.mpr hnil)
      simp [relinked, heq, hleft]
    · simp [relinked, heq]

theorem unlink_ok (h : t.names.Nodup) (hremoved : removed.Nodup) (hall : ∀ s ∈ removed, s ∈ t.names)
    (n : List Char) : ∃ t', t.unlink n removed = (t', .ok ())
      ∧ t'.v_event = t.v_event.filterMap (relinked n removed) := by
  induction removed generalizing t with
  | nil =>
      refine ⟨t, rfl, ?_⟩
      have hkeep : relinked n [] = some := by
        funext e
        simp [relinked]
      rw [hkeep, List.filterMap_some]
  | cons s removed ih =>
      obtain ⟨hs, hrest⟩ := List.nodup_cons.mp hremoved
      obtain ⟨t₁, hone, hv₁⟩ := unlinkOne_ok h (hall s List.mem_cons_self) n
      have hnames : ∀ s', s' ∈ t.names → s' ≠ s → s' ∈ t₁.names := by
        intro s' hs' hne
        obtain ⟨e, he, rfl⟩ := List.mem_map.mp hs'
        have hkept : relinked n [s] e = some e :=
          relinked_eq_some_iff.mpr (.inr ⟨by simpa using hne, rfl⟩)
        rw [names, hv₁]
        exact List.mem_map_of_mem (List.mem_filterMap.mpr ⟨e, he, hkept⟩)
      have hnodup : t₁.names.Nodup := by
        rw [names, hv₁]
        exact h.sublist (sublist_map_filterMap (fun _ _ => relinked_name) _)
      obtain ⟨t₂, hloop, hv₂⟩ := ih hnodup hrest fun s' hs' =>
        hnames s' (hall s' (List.mem_cons_of_mem _ hs')) fun heq => hs (heq ▸ hs')
      refine ⟨t₂, ?_, ?_⟩
      · rw [unlink, hone]
        exact hloop
      · rw [hv₂, hv₁, List.filterMap_filterMap]
        refine List.filterMap_congr fun e _ => ?_
        by_cases heq : e.name = s
        · have hname : (e.pop_alarm n).name = s := heq
          by_cases hnil : e.m_alarm.erase n = []
          · simp [relinked, heq, hnil]
          · simp [relinked, heq, hnil, hname, hs]
        · simp [relinked, heq]

/-- The counters are those of the events, each of which has one flag. -/
def Tally (t : EventTable) : Prop := Tallied AlarmEvent.toSignalFlags t.toSignalCounters t.v_event

namespace Tally

theorem add (h : t.Tally) (hadd : t.add s = .ok t') : t'.Tally := by
  unfold EventTable.add at hadd
  split_ifs at hadd
  rw [← Except.ok.inj hadd]
  exact Tallied.add h rfl

theorem addMissing (h : t.Tally) (evn : List (List Char)) : (t.addMissing evn).1.Tally := by
  induction evn generalizing t with
  | nil => exact h
  | cons s evn ih =>
      rw [EventTable.addMissing]
      split_ifs
      · exact ih h
      · cases hadd : t.add s with
        | error e => exact h
        | ok t' => exact ih (h.add hadd)

theorem relist (h : t.Tally) (i : Nat) {change : AlarmEvent → AlarmEvent}
    (hflags : ∀ e, (change e).toSignalFlags = e.toSignalFlags) :
    Tally { t with v_event := t.v_event.modify i change } := by
  cases hi : t.v_event[i]? with
  | none =>
      rw [List.modify_eq_self (List.getElem?_eq_none_iff.mp hi)]
      exact h
  | some e =>
      refine Tallied.modify h hi ?_
      rw [hflags]
      exact moves_same _ _

theorem onEvent (h : t.Tally) {change : AlarmEvent → AlarmEvent}
    {counters : SignalCounters → SignalFlags → SignalCounters}
    (hmoves : ∀ (e : AlarmEvent) c, Moves e.toSignalFlags (change e).toSignalFlags c
      (counters c e.toSignalFlags))
    (hok : t.onEvent s change counters = .ok t') : t'.Tally := by
  unfold EventTable.onEvent at hok
  cases hfind : t.get_signal s with
  | none => simp [hfind] at hok
  | some i =>
      simp only [hfind, Except.ok.injEq] at hok
      rw [← hok]
      cases hi : t.v_event[i]? with
      | none =>
          rw [List.modify_eq_self (List.getElem?_eq_none_iff.mp hi)]
          exact h
      | some e => exact Tallied.modify h hi (hmoves e _)

theorem remove (h : t.Tally) (hok : t.remove s = .ok t') : t'.Tally := by
  unfold EventTable.remove at hok
  cases hfind : t.get_signal s with
  | none => simp [hfind] at hok
  | some i =>
      simp only [hfind, Except.ok.injEq] at hok
      rw [← hok]
      cases hi : t.v_event[i]? with
      | none =>
          rw [List.eraseIdx_of_length_le (List.getElem?_eq_none_iff.mp hi)]
          exact h
      | some e => exact Tallied.remove h hi

theorem link (h : t.Tally) (n s : List Char) : (t.link n s).Tally := by
  unfold EventTable.link
  cases t.find s with
  | none => exact h
  | some i => exact h.relist i fun _ => rfl

theorem started (h : t.Tally) (s : List Char) : (t.started s).Tally := by
  unfold EventTable.started
  split_ifs
  · cases hok : t.start s with
    | error e => exact h
    | ok t' => exact h.onEvent (fun e c => moves_start e.toSignalFlags c) hok
  · exact h

theorem add_event (h : t.Tally) (n : List Char) (evn : List (List Char)) :
    (t.add_event n evn).1.Tally := by
  have hadded := h.addMissing evn
  unfold EventTable.add_event
  generalize t.addMissing evn = res at hadded
  obtain ⟨t', outcome⟩ := res
  cases outcome with
  | error e => exact hadded
  | ok u =>
      have hlinked : Tally (run (EventTable.link n) t' evn) :=
        run_preserves (fun _ s h => h.link n s) evn hadded
      have hstarted : Tally (run EventTable.started (run (EventTable.link n) t' evn) evn) :=
        run_preserves (fun _ s h => h.started s) evn hlinked
      exact hstarted

theorem unlinkOne (h : t.Tally) (n s : List Char) : (t.unlinkOne n s).1.Tally := by
  unfold EventTable.unlinkOne
  cases t.find s with
  | none => exact h
  | some i =>
      have hpopped : Tally { t with v_event := t.v_event.modify i (AlarmEvent.pop_alarm n) } :=
        h.relist i fun _ => rfl
      dsimp only
      split_ifs
      · unfold EventTable.drop
        dsimp only
        split
        · exact hpopped
        · rename_i t₁ hstop
          have hstopped := hpopped.onEvent (fun e c => moves_stop e.toSignalFlags c) hstop
          split
          · exact hstopped
          · rename_i t₂ hremove
            exact hstopped.remove hremove
      · exact hpopped

theorem unlink (h : t.Tally) (n : List Char) (removed : List (List Char)) :
    (t.unlink n removed).1.Tally := by
  induction removed generalizing t with
  | nil => exact h
  | cons s removed ih =>
      have hone := h.unlinkOne n s
      rw [EventTable.unlink]
      generalize t.unlinkOne n s = res at hone
      obtain ⟨t', outcome⟩ := res
      cases outcome with
      | error e => exact hone
      | ok u => exact ih hone

end Tally

end EventTable

end DshLmc
