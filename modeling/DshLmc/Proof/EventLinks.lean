import DshLmc.Proof.EventTables

/-!
# Alarms and their events

The alarms of the table know their events, and the events their alarms. Whatever is loaded and
removed, every event of an alarm is in the table and lists the alarm. The other way round it takes
more: only while every formula names its events once, and the table takes them all, an event lists no
alarm twice and leaves the table with the last one.
-/

namespace DshLmc

open TableAlarm

namespace TableAlarm

theorem mem_insertName {names : List (List Char)} {s x : List Char} :
    x ∈ insertName names s ↔ x = s ∨ x ∈ names := by
  unfold insertName
  split_ifs with h
  · exact ⟨.inr, fun hx => hx.elim (fun heq => heq ▸ h) id⟩
  · exact List.mem_orderedInsert _

theorem nodup_insertName {names : List (List Char)} (h : names.Nodup) (s : List Char) :
    (insertName names s).Nodup := by
  unfold insertName
  split_ifs with hs
  · exact h
  · exact (List.perm_orderedInsert _ s names).nodup_iff.mpr (List.nodup_cons.mpr ⟨hs, h⟩)

theorem mem_foldl_insertName {evn names : List (List Char)} {x : List Char} :
    x ∈ evn.foldl insertName names ↔ x ∈ evn ∨ x ∈ names := by
  induction evn generalizing names with
  | nil => simp
  | cons s evn ih => rw [List.foldl_cons, ih, mem_insertName, List.mem_cons, or_left_comm, or_assoc]

theorem nodup_foldl_insertName {evn names : List (List Char)} (h : names.Nodup) :
    (evn.foldl insertName names).Nodup := by
  induction evn generalizing names with
  | nil => exact h
  | cons s evn ih => exact ih (nodup_insertName h s)

end TableAlarm

namespace AlarmLinks

open EventTable

variable {l : AlarmLinks}

theorem formulaEvents_of_ok {tree : FormulaTree} {evn : List (List Char)}
    (h : FormulaEval.evalNodeEvent tree = .ok evn) : formulaEvents tree = evn := by
  rw [formulaEvents, h]
  rfl

def linkedTo (n : List Char) (evn : List (List Char)) (e : AlarmEvent) : AlarmEvent :=
  startedIn evn (pushed n evn e)

theorem load_cases (h : l.Distinct) (alm : AlarmT) (tree : FormulaTree) (ts unset : TimeVal)
    (is_new : Bool) : (l.load alm tree ts unset is_new = l
        ∧ ((∃ a ∈ l.v_alarm, a.name = alm.name) ∨ formulaEvents tree = [])) ∨
      ((∀ a ∈ l.v_alarm, a.name ≠ alm.name) ∧ ∃ evn t, FormulaEval.evalNodeEvent tree = .ok evn
        ∧ Filled l.toEventTable evn (l.toEventTable.addMissing evn)
        ∧ (((l.toEventTable.addMissing evn).2 = .ok ()
            ∧ t.v_event = (l.toEventTable.addMissing evn).1.v_event.map (linkedTo alm.name evn)
            ∧ l.load alm tree ts unset is_new
              = ⟨t, l.v_alarm ++ [(TableAlarm.load alm tree ts unset is_new).addEvent evn]⟩)
          ∨ ((l.toEventTable.addMissing evn).2 ≠ .ok () ∧ t = (l.toEventTable.addMissing evn).1
            ∧ l.load alm tree ts unset is_new
              = ⟨t, l.v_alarm ++ [TableAlarm.load alm tree ts unset is_new]⟩))) := by
  rw [load]
  split_ifs with hexist
  · exact .inl ⟨rfl, .inl (by simpa using hexist)⟩
  have hfresh : ∀ a ∈ l.v_alarm, a.name ≠ alm.name := by simpa using hexist
  cases hev : FormulaEval.evalNodeEvent tree with
  | error e => exact .inl ⟨rfl, .inr (by rw [formulaEvents, hev]; rfl)⟩
  | ok evn =>
      have hfilled := filled_addMissing h evn
      refine .inr ⟨hfresh, evn, (l.toEventTable.add_event alm.name evn).1, rfl, hfilled, ?_⟩
      cases hres : l.toEventTable.addMissing evn with
      | mk t outcome =>
          rw [hres] at hfilled
          cases outcome with
          | error e =>
              have hadd : l.toEventTable.add_event alm.name evn = (t, .error e) := by
                rw [add_event, hres]
              exact .inr ⟨by simp, by rw [hadd], by simp only [hadd]⟩
          | ok u =>
              have hadd : l.toEventTable.add_event alm.name evn
                  = (evn.foldl started (evn.foldl (link alm.name) t), .ok ()) := by
                rw [add_event, hres]
              refine .inl ⟨rfl, ?_, by simp only [hadd]⟩
              have hnodup : t.names.Nodup := hfilled.distinct.nodup
              have hnames : (evn.foldl (link alm.name) t).names = t.names :=
                names_eq_of_map (v_event_foldl_link hnodup alm.name evn) fun _ => rfl
              rw [hadd, v_event_foldl_started (hnames ▸ hnodup), v_event_foldl_link hnodup,
                List.map_map]
              rfl

theorem linkedTo_name (n : List Char) (evn : List (List Char)) (e : AlarmEvent) :
    (linkedTo n evn e).name = e.name := startedIn_name evn _

theorem linkedTo_m_alarm (n : List Char) (evn : List (List Char)) (e : AlarmEvent) :
    (linkedTo n evn e).m_alarm = e.m_alarm ++ List.replicate (evn.count e.name) n :=
  startedIn_m_alarm evn _

theorem mem_linkedTo_iff {n m : List Char} {evn : List (List Char)} {e : AlarmEvent} :
    m ∈ (linkedTo n evn e).m_alarm ↔ m ∈ e.m_alarm ∨ e.name ∈ evn ∧ m = n := by
  have hcount : evn.count e.name ≠ 0 ↔ e.name ∈ evn := by
    rw [← Nat.pos_iff_ne_zero, List.count_pos_iff]
  rw [linkedTo_m_alarm, List.mem_append, List.mem_replicate, hcount]

theorem linkedTo_running {n : List Char} {evn : List (List Char)} {e : AlarmEvent}
    (h : e.name ∈ evn ∨ e.running = true) : (linkedTo n evn e).running = true := by
  simp only [linkedTo, startedIn, List.contains_iff_mem]
  split_ifs with hmem
  · exact running_start _
  · exact h.resolve_left hmem

/-- The events of an alarm are in the table, are started and list the alarm. -/
structure Linked (l : AlarmLinks) : Prop where
  distinct : l.Distinct
  alarms : (l.v_alarm.map fun a => a.name).Nodup
  sets : ∀ a ∈ l.v_alarm, a.s_event.Nodup
  linked : ∀ a ∈ l.v_alarm, ∀ s ∈ a.s_event,
    ∃ e ∈ l.v_event, e.name = s ∧ a.name ∈ e.m_alarm ∧ e.running = true

theorem linked_initial : initial.Linked :=
  ⟨List.nodup_nil, List.nodup_nil, fun _ h => absurd h List.not_mem_nil,
    fun _ h => absurd h List.not_mem_nil⟩

theorem remove_cases (h : l.Linked) (n : List Char) :
    ((l.remove_alarm n).1 = l ∧ ∀ a ∈ l.v_alarm, a.name ≠ n)
      ∨ ∃ a ∈ l.v_alarm, a.name = n ∧ ∃ t : EventTable,
        t.v_event = l.v_event.filterMap (relinked n a.s_event)
          ∧ l.remove_alarm n
            = (⟨t, removeKey (fun a : TableAlarm => a.name) l.v_alarm n⟩, .ok ()) := by
  rw [remove_alarm]
  cases hfind : l.v_alarm.find? fun a => a.name == n with
  | none => exact .inl ⟨rfl, by simpa using hfind⟩
  | some a =>
      have ha := List.mem_of_find?_eq_some hfind
      have hall : ∀ s ∈ a.s_event, s ∈ l.names := by
        intro s hs
        obtain ⟨e, he, rfl, -, -⟩ := h.linked a ha s hs
        exact List.mem_map_of_mem he
      obtain ⟨t, hunlink, hv⟩ := unlink_ok h.distinct.nodup (h.sets a ha) hall n
      have hname := List.find?_some (p := fun a : TableAlarm => a.name == n) hfind
      refine .inr ⟨a, ha, beq_iff_eq.mp hname, t, hv, ?_⟩
      simp only [hunlink]

theorem Linked.load (h : l.Linked) (alm : AlarmT) (tree : FormulaTree) (ts unset : TimeVal)
    (is_new : Bool) : (l.load alm tree ts unset is_new).Linked := by
  obtain ⟨hsame, -⟩ | ⟨hfresh, evn, t, -, hfilled, hload⟩ :=
    load_cases h.distinct alm tree ts unset is_new
  · rwa [hsame]
  have halarms : alm.name ∉ l.v_alarm.map fun a => a.name := by simpa using hfresh
  obtain ⟨hok, hv, hload⟩ | ⟨-, rfl, hload⟩ := hload
  · rw [hload]
    refine ⟨?_, nodup_map_append_singleton h.alarms halarms, ?_, ?_⟩
    · change (t.v_event.map _).Nodup
      rw [hv, List.map_map]
      have hnames : (fun e : AlarmEvent => removeDomain e.name) ∘ linkedTo alm.name evn
          = fun e => removeDomain e.name := by
        funext e
        exact congrArg removeDomain (linkedTo_name _ _ e)
      rw [hnames]
      exact hfilled.distinct
    · refine List.forall_mem_append.mpr ⟨h.sets, List.forall_mem_singleton.mpr ?_⟩
      exact nodup_foldl_insertName List.nodup_nil
    · refine List.forall_mem_append.mpr ⟨fun a ha s hs => ?_, List.forall_mem_singleton.mpr ?_⟩
      · obtain ⟨e, he, rfl, hmem, hrunning⟩ := h.linked a ha s hs
        refine ⟨linkedTo alm.name evn e, ?_, linkedTo_name _ _ e,
          mem_linkedTo_iff.mpr (.inl hmem), linkedTo_running (.inr hrunning)⟩
        exact hv ▸ List.mem_map_of_mem (hfilled.mem_event he)
      · intro s hs
        have hs' : s ∈ evn := (mem_foldl_insertName.mp hs).resolve_right List.not_mem_nil
        obtain ⟨e, he, rfl⟩ := List.mem_map.mp (hfilled.ok hok s hs')
        refine ⟨linkedTo alm.name evn e, ?_, linkedTo_name _ _ e,
          mem_linkedTo_iff.mpr (.inr ⟨hs', rfl⟩), linkedTo_running (.inl hs')⟩
        exact hv ▸ List.mem_map_of_mem he
  · rw [hload]
    refine ⟨hfilled.distinct, nodup_map_append_singleton h.alarms halarms, ?_, ?_⟩
    · exact List.forall_mem_append.mpr ⟨h.sets, List.forall_mem_singleton.mpr List.nodup_nil⟩
    · refine List.forall_mem_append.mpr ⟨fun a ha s hs => ?_, List.forall_mem_singleton.mpr ?_⟩
      · obtain ⟨e, he, hlinked⟩ := h.linked a ha s hs
        exact ⟨e, hfilled.mem_event he, hlinked⟩
      · exact List.forall_mem_nil _

theorem Linked.remove (h : l.Linked) (n : List Char) : (l.remove_alarm n).1.Linked := by
  obtain ⟨hsame, -⟩ | ⟨a, ha, rfl, t, hv, hremove⟩ := remove_cases h n
  · rwa [hsame]
  have hothers {a' : TableAlarm}
      (ha' : a' ∈ removeKey (fun a : TableAlarm => a.name) l.v_alarm a.name) :
      a' ∈ l.v_alarm ∧ a'.name ≠ a.name := (mem_removeKey_iff h.alarms).mp ha'
  rw [hremove]
  refine ⟨?_, nodup_removeKey h.alarms _, fun a' ha' => h.sets a' (hothers ha').1, ?_⟩
  · change (t.v_event.map _).Nodup
    rw [hv]
    have hkeeps : ∀ e e', relinked a.name a.s_event e = some e' →
        removeDomain e'.name = removeDomain e.name := fun _ _ he => congrArg _ (relinked_name he)
    exact List.Nodup.sublist (sublist_map_filterMap hkeeps _) h.distinct
  · intro a' ha' s hs
    obtain ⟨e, he, rfl, hmem, hrunning⟩ := h.linked a' (hothers ha').1 s hs
    have hleft : a'.name ∈ e.m_alarm.erase a.name := (List.mem_erase_of_ne (hothers ha').2).mpr hmem
    change ∃ e' ∈ t.v_event, _
    rw [hv]
    by_cases hunlinked : e.name ∈ a.s_event
    · refine ⟨e.pop_alarm a.name, List.mem_filterMap.mpr ⟨e, he, ?_⟩, rfl, hleft, hrunning⟩
      exact relinked_eq_some_iff.mpr (.inl ⟨hunlinked, List.ne_nil_of_mem hleft, rfl⟩)
    · refine ⟨e, List.mem_filterMap.mpr ⟨e, he, ?_⟩, rfl, hmem, hrunning⟩
      exact relinked_eq_some_iff.mpr (.inr ⟨hunlinked, rfl⟩)

theorem Linked.step (h : l.Linked) (cmd : Command) : (l.step cmd).Linked := by
  cases cmd with
  | load alm tree ts unset is_new => exact h.load alm tree ts unset is_new
  | remove n => exact h.remove n

theorem tally_step (h : l.Tally) (cmd : Command) : (l.step cmd).Tally := by
  cases cmd with
  | load alm tree ts unset is_new =>
      change (l.load alm tree ts unset is_new).Tally
      unfold AlarmLinks.load
      split_ifs
      · exact h
      cases FormulaEval.evalNodeEvent tree with
      | error e => exact h
      | ok evn =>
          have hadded := h.add_event alm.name evn
          dsimp only
          generalize l.toEventTable.add_event alm.name evn = res at hadded ⊢
          obtain ⟨t, outcome⟩ := res
          cases outcome with
          | error e => exact hadded
          | ok u => exact hadded
  | remove n =>
      change (l.remove_alarm n).1.Tally
      unfold remove_alarm
      cases l.v_alarm.find? fun a => a.name == n with
      | none => exact h
      | some a =>
          have hunlinked := h.unlink n a.s_event
          dsimp only
          generalize l.toEventTable.unlink n a.s_event = res at hunlinked ⊢
          obtain ⟨t, outcome⟩ := res
          cases outcome with
          | error e => exact hunlinked
          | ok u => exact hunlinked

/-- **Every event reaches its alarms.** After any run of loads and removals, also of formulas that
name an event twice or name one that is refused, the events of an alarm are in the table, are started
and list the alarm. An alarm of the table is removed without an error, and the counters are those of
the events. -/
theorem linked_run (cmds : List Command) :
    let l := run AlarmLinks.step initial cmds
    (∀ a ∈ l.v_alarm, ∀ s ∈ a.s_event,
        ∃ e ∈ l.v_event, e.name = s ∧ a.name ∈ e.m_alarm ∧ e.running = true)
      ∧ (∀ a ∈ l.v_alarm, (l.remove_alarm a.name).2 = .ok ()) ∧ l.Tally := by
  intro l
  have hlinked : l.Linked := run_preserves (fun _ cmd h => h.step cmd) cmds linked_initial
  have htally : l.Tally :=
    run_preserves (I := fun l : AlarmLinks => l.Tally) (fun _ cmd h => tally_step h cmd) cmds
      Tallied.nil
  refine ⟨hlinked.linked, fun a ha => ?_, htally⟩
  obtain ⟨-, hnone⟩ | ⟨_, _, _, _, _, hremove⟩ := remove_cases hlinked a.name
  · exact absurd rfl (hnone a ha)
  · rw [hremove]

/-! ### When the tables mirror each other -/

/-- The events are those that the formulas of the alarms name, and each lists every alarm whose
formula names it once. -/
structure Mirrored (l : AlarmLinks) : Prop where
  named : ∀ a ∈ l.v_alarm, ∀ s ∈ formulaEvents a.formula_tree, s ∈ l.names
  used : ∀ e ∈ l.v_event, e.m_alarm ≠ []
  once : ∀ e ∈ l.v_event, e.m_alarm.Nodup
  listed : ∀ e ∈ l.v_event, ∀ n,
    n ∈ e.m_alarm ↔ ∃ a ∈ l.v_alarm, a.name = n ∧ e.name ∈ formulaEvents a.formula_tree

/-- A formula that is loaded names no event twice, and the table takes all of its events. -/
def Clean (l : AlarmLinks) : Command → Prop
  | .load alm tree _ _ _ => (∀ a ∈ l.v_alarm, a.name ≠ alm.name) →
      (formulaEvents tree).Nodup ∧ l.Accepts (formulaEvents tree)
  | .remove _ => True

/-- The set of an alarm is that of its formula. -/
structure Inv (l : AlarmLinks) : Prop where
  linked : l.Linked
  mirrored : l.Mirrored
  sets : ∀ a ∈ l.v_alarm, ∀ s, s ∈ a.s_event ↔ s ∈ formulaEvents a.formula_tree

theorem inv_initial : initial.Inv where
  linked := linked_initial
  mirrored :=
    ⟨fun _ h => absurd h List.not_mem_nil, fun _ h => absurd h List.not_mem_nil,
      fun _ h => absurd h List.not_mem_nil, fun _ h => absurd h List.not_mem_nil⟩
  sets _ h := absurd h List.not_mem_nil

/-- Before the alarm is linked, its new events list nothing, and no formula names them. -/
theorem Mirrored.filled (h : l.Mirrored) {evn : List (List Char)}
    {res : EventTable × Except (List Char) Unit} (hf : Filled l.toEventTable evn res)
    {e : AlarmEvent} (he : e ∈ res.1.v_event) :
    (e.m_alarm ≠ [] ∨ e.name ∈ evn) ∧ e.m_alarm.Nodup ∧ ∀ n, n ∈ e.m_alarm
      ↔ ∃ a ∈ l.v_alarm, a.name = n ∧ e.name ∈ formulaEvents a.formula_tree := by
  obtain ⟨new, hnew, hmem⟩ := hf.added
  have hdisjoint : ∀ s ∈ new, s ∉ l.names := by
    have hnodup := hf.distinct.nodup
    rw [names, hnew, List.map_append, List.map_map] at hnodup
    intro s hs hold
    refine (List.nodup_append.mp hnodup).2.2 s hold s ?_ rfl
    exact List.mem_map.mpr ⟨s, hs, rfl⟩
  rw [hnew] at he
  rcases List.mem_append.mp he with hold | hadded
  · exact ⟨.inl (h.used e hold), h.once e hold, h.listed e hold⟩
  · obtain ⟨s, hs, rfl⟩ := List.mem_map.mp hadded
    refine ⟨.inr (hmem s hs).1, List.nodup_nil, fun n => iff_of_false List.not_mem_nil ?_⟩
    rintro ⟨a, ha, -, hname⟩
    exact hdisjoint s hs (h.named a ha s hname)

theorem Inv.load_mirrored (h : l.Inv) {alm : AlarmT} {evn : List (List Char)} {a₀ : TableAlarm}
    {t : EventTable} (hfresh : ∀ a ∈ l.v_alarm, a.name ≠ alm.name) (hname : a₀.name = alm.name)
    (htree : formulaEvents a₀.formula_tree = evn) (hnodup : evn.Nodup)
    (hf : Filled l.toEventTable evn (l.toEventTable.addMissing evn))
    (hok : (l.toEventTable.addMissing evn).2 = .ok ())
    (hv : t.v_event = (l.toEventTable.addMissing evn).1.v_event.map (linkedTo alm.name evn)) :
    (⟨t, l.v_alarm ++ [a₀]⟩ : AlarmLinks).Mirrored := by
  have hnames : t.names = (l.toEventTable.addMissing evn).1.names :=
    names_eq_of_map hv (linkedTo_name alm.name evn)
  have hevent : ∀ e' ∈ t.v_event, ∃ e ∈ (l.toEventTable.addMissing evn).1.v_event,
      linkedTo alm.name evn e = e' := fun e' he' => List.mem_map.mp (hv ▸ he')
  refine ⟨?_, fun e' he' => ?_, fun e' he' => ?_, fun e' he' m => ?_⟩
  · change ∀ a ∈ l.v_alarm ++ [a₀], ∀ s ∈ _, s ∈ t.names
    rw [hnames]
    refine List.forall_mem_append.mpr ⟨fun a ha s hs => ?_, List.forall_mem_singleton.mpr ?_⟩
    · exact hf.mem_names (h.mirrored.named a ha s hs)
    · rw [htree]
      exact hf.ok hok
  · obtain ⟨e, he, rfl⟩ := hevent e' he'
    rcases (h.mirrored.filled hf he).1 with hne | hmem
    · rw [linkedTo_m_alarm]
      exact List.append_ne_nil_of_left_ne_nil hne _
    · exact List.ne_nil_of_mem (mem_linkedTo_iff.mpr (.inr ⟨hmem, rfl⟩))
  · obtain ⟨e, he, rfl⟩ := hevent e' he'
    obtain ⟨-, honce, hlisted⟩ := h.mirrored.filled hf he
    rw [linkedTo_m_alarm]
    refine List.nodup_append'.mpr ⟨honce, ?_, fun m hm hrep => ?_⟩
    · exact List.nodup_replicate.mpr (List.nodup_iff_count_le_one.mp hnodup e.name)
    · obtain ⟨a, ha, hm', -⟩ := (hlisted m).mp hm
      exact hfresh a ha (hm'.trans (List.eq_of_mem_replicate hrep))
  · obtain ⟨e, he, rfl⟩ := hevent e' he'
    change _ ↔ ∃ a ∈ l.v_alarm ++ [a₀], a.name = m ∧ _
    rw [mem_linkedTo_iff, (h.mirrored.filled hf he).2.2 m, linkedTo_name]
    constructor
    · rintro (⟨a, ha, hm, hmem⟩ | ⟨hmem, rfl⟩)
      · exact ⟨a, List.mem_append_left _ ha, hm, hmem⟩
      · exact ⟨a₀, List.mem_append_right _ List.mem_cons_self, hname, htree ▸ hmem⟩
    · rintro ⟨a, ha, hm, hmem⟩
      rcases List.mem_append.mp ha with hold | hlast
      · exact .inl ⟨a, hold, hm, hmem⟩
      · obtain rfl := List.mem_singleton.mp hlast
        exact .inr ⟨htree ▸ hmem, hm.symm.trans hname⟩

theorem Inv.remove (h : l.Inv) (n : List Char) : (l.remove_alarm n).1.Inv := by
  have hlinked := h.linked.remove n
  obtain ⟨hsame, -⟩ | ⟨a, ha, rfl, t, hv, hremove⟩ := remove_cases h.linked n
  · rwa [hsame]
  rw [hremove] at hlinked ⊢
  have hothers {a' : TableAlarm} : a' ∈ removeKey (fun a : TableAlarm => a.name) l.v_alarm a.name
      ↔ a' ∈ l.v_alarm ∧ a'.name ≠ a.name := mem_removeKey_iff h.linked.alarms
  have hevent : ∀ e' ∈ t.v_event, ∃ e ∈ l.v_event, (e.name ∈ a.s_event ∧ e.m_alarm.erase a.name ≠ []
      ∧ e.pop_alarm a.name = e') ∨ (e.name ∉ a.s_event ∧ e = e') := by
    intro e' he'
    obtain ⟨e, he, hsome⟩ := List.mem_filterMap.mp (hv ▸ he')
    exact ⟨e, he, relinked_eq_some_iff.mp hsome⟩
  refine ⟨hlinked, ⟨fun a' ha' s hs => ?_, fun e' he' => ?_, fun e' he' => ?_, fun e' he' m => ?_⟩,
    fun a' ha' => h.sets a' (hothers.mp ha').1⟩
  · obtain ⟨e, he, hname, -⟩ := hlinked.linked a' ha' s ((h.sets a' (hothers.mp ha').1 s).mpr hs)
    exact hname ▸ List.mem_map_of_mem he
  · obtain ⟨e, he, ⟨-, hleft, rfl⟩ | ⟨-, rfl⟩⟩ := hevent e' he'
    · exact hleft
    · exact h.mirrored.used e he
  · obtain ⟨e, he, ⟨-, -, rfl⟩ | ⟨-, rfl⟩⟩ := hevent e' he'
    · exact (h.mirrored.once e he).erase _
    · exact h.mirrored.once e he
  · change _ ↔ ∃ a' ∈ removeKey (fun a : TableAlarm => a.name) l.v_alarm a.name, a'.name = m ∧ _
    obtain ⟨e, he, ⟨-, -, rfl⟩ | ⟨hunlinked, rfl⟩⟩ := hevent e' he'
    · change m ∈ e.m_alarm.erase a.name ↔ _
      rw [(h.mirrored.once e he).mem_erase_iff, h.mirrored.listed e he m]
      constructor
      · rintro ⟨hne, a', ha', rfl, hmem⟩
        exact ⟨a', hothers.mpr ⟨ha', hne⟩, rfl, hmem⟩
      · rintro ⟨a', ha', rfl, hmem⟩
        exact ⟨(hothers.mp ha').2, a', (hothers.mp ha').1, rfl, hmem⟩
    · rw [h.mirrored.listed e he m]
      constructor
      · rintro ⟨a', ha', rfl, hmem⟩
        refine ⟨a', hothers.mpr ⟨ha', fun heq => hunlinked ?_⟩, rfl, hmem⟩
        rw [← List.inj_on_of_nodup_map h.linked.alarms ha' ha heq]
        exact (h.sets a' ha' _).mpr hmem
      · rintro ⟨a', ha', rfl, hmem⟩
        exact ⟨a', (hothers.mp ha').1, rfl, hmem⟩

theorem Inv.load (h : l.Inv) {alm : AlarmT} {tree : FormulaTree} {ts unset : TimeVal} {is_new : Bool}
    (hclean : l.Clean (.load alm tree ts unset is_new)) : (l.load alm tree ts unset is_new).Inv := by
  have hlinked := h.linked.load alm tree ts unset is_new
  obtain ⟨hsame, -⟩ | ⟨hfresh, evn, t, hev, hf, ⟨hok, hv, hload⟩ | ⟨hrefused, -⟩⟩ :=
    load_cases h.linked.distinct alm tree ts unset is_new
  · rwa [hsame]
  · have htree := formulaEvents_of_ok hev
    have hnodup : evn.Nodup := htree ▸ (hclean hfresh).1
    rw [hload] at hlinked ⊢
    refine ⟨hlinked, h.load_mirrored hfresh rfl htree hnodup hf hok hv, ?_⟩
    refine List.forall_mem_append.mpr ⟨h.sets, List.forall_mem_singleton.mpr fun s => ?_⟩
    change s ∈ evn.foldl insertName [] ↔ s ∈ formulaEvents tree
    rw [mem_foldl_insertName, htree, or_iff_left List.not_mem_nil]
  · have htree := formulaEvents_of_ok hev
    exact absurd (addMissing_ok (htree ▸ (hclean hfresh).2)) hrefused

theorem Inv.not_mirrored (h : l.Inv) {alm : AlarmT} {tree : FormulaTree} {ts unset : TimeVal}
    {is_new : Bool} (hnot : ¬ l.Clean (.load alm tree ts unset is_new)) :
    ¬ (l.load alm tree ts unset is_new).Mirrored := by
  intro hm
  obtain ⟨hfresh', hunclean⟩ := Classical.not_imp.mp hnot
  obtain ⟨-, ⟨a, ha, hname⟩ | hnone⟩
    | ⟨hfresh, evn, t, hev, hf, ⟨hok, hv, hload⟩ | ⟨hrefused, rfl, hload⟩⟩ :=
      load_cases h.linked.distinct alm tree ts unset is_new
  · exact hfresh' a ha hname
  · rw [hnone] at hunclean
    exact hunclean ⟨List.nodup_nil, fun _ hs => absurd hs List.not_mem_nil⟩
  · have htree := formulaEvents_of_ok hev
    rw [htree] at hunclean
    rw [hload] at hm
    have haccepts := accepts_of_ok h.linked.distinct hok
    refine hunclean ⟨List.nodup_iff_count_le_one.mpr fun s => ?_, haccepts⟩
    by_cases hs : s ∈ evn
    · obtain ⟨e, he, rfl⟩ := List.mem_map.mp (hf.ok hok s hs)
      have honce := hm.once (linkedTo alm.name evn e) (hv ▸ List.mem_map_of_mem he)
      rw [linkedTo_m_alarm] at honce
      exact List.nodup_replicate.mp (List.nodup_append'.mp honce).2.1
    · rw [List.count_eq_zero_of_not_mem hs]
      exact Nat.zero_le 1
  · have htree := formulaEvents_of_ok hev
    obtain ⟨s, hs, hmissing⟩ := hf.error hrefused
    rw [hload] at hm
    refine hmissing (hm.named (TableAlarm.load alm tree ts unset is_new) ?_ s (htree ▸ hs))
    exact List.mem_append_right _ List.mem_cons_self

/-- **When the tables mirror each other.** All along a run of loads and removals the events are those
of the formulas and each lists its alarms once, exactly when no formula that is loaded names an event
twice and none of its events is refused. -/
theorem mirrored_iff_along {cmds : List Command} :
    (∀ past, past <+: cmds → (run AlarmLinks.step initial past).Mirrored)
      ↔ Along AlarmLinks.step Clean initial cmds := by
  have hany : Along AlarmLinks.step (fun _ _ => True) initial cmds :=
    along_of_forall_mem fun _ _ => trivial
  refine forall_prefix_iff_along (fun _ h => h.mirrored) (fun l cmd h _ hclean => ?_)
    (fun l cmd h _ hnot => ?_) inv_initial hany
  · cases cmd with
    | load alm tree ts unset is_new => exact h.load hclean
    | remove n => exact h.remove n
  · cases cmd with
    | load alm tree ts unset is_new => exact h.not_mirrored hnot
    | remove n => exact absurd trivial hnot

end AlarmLinks

end DshLmc
