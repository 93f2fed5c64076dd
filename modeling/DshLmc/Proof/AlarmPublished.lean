import DshLmc.Proof.AlarmDelays

/-!
# The published state of an alarm

The attribute of an alarm is written at some of the places where its record changes. An operation
that changes the record without writing it leaves clients with an old state until the next
evaluation. Here is exactly which operations do.
-/

namespace DshLmc

namespace TableAlarm

variable {R : Type} {N : Numbers R} {d : Device} {a : TableAlarm}

def Published (a : TableAlarm) : Prop := a.attr_value = a.attrState

/-- A shelved alarm is enabled and silent, and its state is published. -/
structure Shown (a : TableAlarm) : Prop where
  published : a.Published
  enabled : a.shelved = true → a.enabled = true
  silenced : a.shelved = true → 0 < a.silenced

theorem attrState_eq (h : a.shelved = true → 0 < a.silenced) :
    a.attrState = if !a.enabled then .oosrv else if a.shelved then .shlvd
      else statusState a.stat a.ack := by
  have hshelved : (a.shelved && decide (0 < a.silenced)) = a.shelved := by
    cases hs : a.shelved with
    | false => rfl
    | true => simp [h hs]
  rw [attrState, hshelved]

theorem minutesLeft_pos {now : TimeVal} (h : 0 < a.silenced) (hends : a.silenceEnds now = false) :
    0 < a.minutesLeft now := by
  have hleft : a.elapsed now < a.silent_time * 60000000 := by
    simpa [silenceEnds, h] using hends
  rw [minutesLeft, if_pos h, if_pos hleft]
  omega

theorem countdown_silenced (h : a.shelved = true → 0 < a.silenced) (now : TimeVal) :
    (a.shelved && !a.silenceEnds now) = true → 0 < a.minutesLeft now := by
  intro hshelved
  simp only [Bool.and_eq_true, Bool.not_eq_true'] at hshelved
  exact minutesLeft_pos (h hshelved.1) hshelved.2

/-- The state that is published stays that of the record. -/
def KeepsPublished (a : TableAlarm) : Op R → Prop
  | .timerUpdate ts now =>
      a.enabled = true → a.silenceEnds now = true →
        if a.shelved then a.timerOnDelay ts = true ∨ a.timerOffDelay ts = true
        else a.ack = .ack ∨ a.statusChanges (a.timerOnDelay ts) (a.timerOffDelay ts) = true
  | .ack panel => a.enabled = true → a.shelved = false → panel = .notAck ∨ a.ack = .ack
  | .silence now _ | .shelveCheck now => a.shelved = true → a.silenceEnds now = false
  | .modify alm _ _ => a.attrState = if alm.enabled then .norm else .oosrv
  | _ => True

theorem statusState_ne_shlvd (s : AlarmStat) (k : AlarmAck) : statusState s k ≠ .shlvd := by
  cases s <;> cases k <;> simp [statusState]

/-- An operation that writes the attribute from the record. -/
theorem Shown.ofWritten (hwritten : a.attr_value = a.attrState)
    (hshelved : a.shelved = true → a.enabled = true ∧ 0 < a.silenced) : Shown a :=
  ⟨hwritten, fun h => (hshelved h).1, fun h => (hshelved h).2⟩

/-- A countdown that is not published shows nothing new, unless it ends a shelving. -/
theorem Shown.countdown_published_iff (h : Shown a) (now : TimeVal) :
    (a.countdown now).Published ↔ (a.shelved = true → a.silenceEnds now = false) := by
  have hafter : (a.countdown now).attrState
      = if !a.enabled then .oosrv else if a.shelved && !a.silenceEnds now then .shlvd
        else statusState a.stat a.ack := attrState_eq (countdown_silenced h.silenced now)
  have hbefore : a.attr_value = _ := h.published.trans (attrState_eq h.silenced)
  unfold Published
  rw [hafter]
  change a.attr_value = _ ↔ _
  rw [hbefore]
  cases hs : a.shelved with
  | false => simp
  | true =>
      rw [h.enabled hs]
      cases hends : a.silenceEnds now with
      | false => simp
      | true => simpa using (statusState_ne_shlvd a.stat a.ack).symm

theorem Shown.countdown (h : Shown a) {now : TimeVal} (hpub : (a.countdown now).Published) :
    Shown (a.countdown now) where
  published := hpub
  enabled := fun hs => h.enabled (Bool.and_eq_true_iff.mp hs).1
  silenced := countdown_silenced h.silenced now

set_option synthInstance.maxSize 512 in
/-- The state of the record and the state from the flags of the timer, by what they depend on: in
service, shelved, the end of a silence, minutes left, the two delays, the status and the
acknowledgement. -/
theorem timer_states (enabled shelved ends silent on off : Bool) (s : AlarmStat) (k : AlarmAck)
    (hservice : shelved = true → enabled = true)
    (hsilent : (shelved && !ends) = true → silent = true) :
    let changed :=
      on && decide (s = .normal) || off && decide (s = .alarm) || shelved && !(shelved && !ends)
    let before : AlarmStateEnum :=
      if !enabled then .oosrv else if shelved then .shlvd else statusState s k
    let acked : AlarmAck := if ends then .ack else k
    let k' : AlarmAck := if changed && on then .notAck else acked
    let s' : AlarmStat := if on then .alarm else if off then .normal else s
    let flags : AlarmStateEnum :=
      if !enabled then .oosrv
      else if shelved && !ends && silent then .shlvd
      else if off && decide (k' = .ack) then .norm
      else if on && decide (k' = .notAck) then .unack
      else if on && decide (k' = .ack) then .acked
      else if off && decide (k' = .notAck) then .rtnun
      else before
    let after : AlarmStateEnum :=
      if !enabled then .oosrv else if shelved && !ends then .shlvd else statusState s' k'
    (if changed then flags else before) = after
      ↔ (enabled = true → ends = true →
        if shelved then on = true ∨ off = true
        else k = .ack ∨ (on && decide (s = .normal) || off && decide (s = .alarm)) = true) := by
  cases s <;> cases k <;> revert enabled shelved ends silent on off <;> decide

/-- The state after a timer, from the flags and the silence. -/
theorem Shown.timer_published_iff (h : Shown a) (grp2str : UInt32 → List Char)
    (startup_complete ts now : TimeVal) :
    (a.timerUpdate grp2str startup_complete ts now).alarm.Published
      ↔ KeepsPublished (R := R) a (.timerUpdate ts now) := by
  have hsilent := countdown_silenced h.silenced now
  have hafter := attrState_eq (a := (a.timerUpdate grp2str startup_complete ts now).alarm) hsilent
  have hbefore : a.attr_value = _ := h.published.trans (attrState_eq h.silenced)
  have hstates := timer_states a.enabled a.shelved (a.silenceEnds now)
    (decide (0 < a.minutesLeft now)) (a.timerOnDelay ts) (a.timerOffDelay ts) a.stat a.ack h.enabled
    fun hs => decide_eq_true (hsilent hs)
  dsimp only at hstates
  rw [← hbefore] at hstates
  unfold Published
  rw [hafter]
  exact hstates

theorem attrState_modify (alm : AlarmT) (on_command off_command : Connected) :
    (a.modify alm on_command off_command).attrState = if alm.enabled then .norm else .oosrv := by
  have hsilenced : decide (0 < unsilenced alm.silent_time) = false := by
    unfold unsilenced
    split_ifs <;> rfl
  change (if !alm.enabled then AlarmStateEnum.oosrv
    else if a.shelved && decide (0 < unsilenced alm.silent_time) then .shlvd else .norm) = _
  rw [hsilenced, Bool.and_false]
  cases alm.enabled <;> rfl

/-- A command that goes on after its countdown, in a record that is not shelved any more. -/
theorem Shown.silence_published_iff (h : Shown a) (now now' : TimeVal) :
    (a.silence now now').Published ↔ (a.shelved = true → a.silenceEnds now = false) := by
  rw [← h.countdown_published_iff now]
  unfold TableAlarm.silence
  dsimp only
  split_ifs with hrefused
  · rfl
  · -- The record is not shelved, or its silence would be left.
    have hunshelved : (a.countdown now).shelved = false := by
      rw [← Bool.not_eq_true]
      exact fun hs => hrefused (.inl (countdown_silenced h.silenced now hs))
    unfold Published attrState
    rw [hunshelved]
    rfl

theorem Shown.ack_published_iff (h : Shown a) (panel : AlarmAck) :
    (a.acknowledge panel).Published
      ↔ (a.enabled = true → a.shelved = false → panel = .notAck ∨ a.ack = .ack) := by
  have hbefore := h.published
  unfold acknowledge
  cases henabled : a.enabled with
  | false => simpa using hbefore
  | true =>
      cases hshelved : a.shelved with
      | true => simpa using hbefore
      | false =>
          cases hpanel : panel with
          | notAck => simp [Published, attrState, henabled]
          | ack =>
              have hstate : a.attr_value = statusState a.stat a.ack := by
                simpa [Published, attrState, henabled, hshelved] using hbefore
              have hinj : statusState a.stat a.ack = statusState a.stat .ack ↔ a.ack = .ack := by
                cases a.stat <;> cases a.ack <;> simp [statusState]
              simpa [Published, attrState, henabled, hshelved, hstate] using hinj

theorem Shown.shelveCheck_published_iff (h : Shown a) (now : TimeVal) :
    (a.shelveCheck now).Published ↔ (a.shelved = true → a.silenceEnds now = false) := by
  unfold TableAlarm.shelveCheck
  split_ifs with henabled
  · exact h.countdown_published_iff now
  · exact iff_of_true h.published fun hs => absurd (h.enabled hs) henabled

/-- **One step.** From a record that is shown, exactly these operations keep it shown. -/
theorem Shown.step_published_iff (h : Shown a) (op : Op R) :
    (a.step N d op).Published ↔ KeepsPublished a op := by
  cases op with
  | doAlarmEval now now' ts ev_name outcome =>
      refine iff_of_true ?_ trivial
      obtain ⟨outcome, attr_values⟩ := outcome
      by_cases hskip : ev_name = FORCED_EVAL ∧ a.to_be_evaluated = false
      · obtain ⟨rfl, hdone⟩ := hskip
        rw [TableAlarm.step, act_doAlarmEval_skipped hdone]
        exact h.published
      · cases outcome with
        | error e =>
            rw [TableAlarm.step, act_doAlarmEval_error hskip]
            cases e <;> exact h.published
        | ok res =>
            rw [TableAlarm.step, act_doAlarmEval_ok hskip]
            rfl
  | timerUpdate ts now =>
      rw [TableAlarm.step, act]
      split
      · exact h.timer_published_iff d.groups.grp2str d.startup_complete ts now
      · -- Without a delay and a silence the timer skips the alarm.
        rename_i htimed
        simp only [timed, Bool.or_eq_true, decide_eq_true_iff, not_or] at htimed
        refine iff_of_true h.published fun _ hends => ?_
        exact absurd (of_decide_eq_true (Bool.and_eq_true_iff.mp hends).1) htimed.2
  | ack panel => exact h.ack_published_iff panel
  | silence now now' => exact h.silence_published_iff now now'
  | shelveCheck now => exact h.shelveCheck_published_iff now
  | shelve now =>
      refine iff_of_true ?_ trivial
      rw [TableAlarm.step, act]
      dsimp only
      split_ifs with hallowed
      · rw [Bool.and_eq_true, decide_eq_true_iff] at hallowed
        simp [Published, attrState, TableAlarm.shelve, hallowed]
      · exact h.published
  | modify alm on_command off_command =>
      change a.attr_value = (a.modify alm on_command off_command).attrState ↔ _
      rw [attrState_modify, h.published]
      rfl
  | disable => exact iff_of_true rfl trivial
  | enable => exact iff_of_true rfl trivial
  | _ => exact iff_of_true h.published trivial

/-- The rest of `Shown` is kept by every operation that keeps the state published. -/
theorem Shown.step (h : Shown a) {op : Op R} (hkeeps : KeepsPublished a op) :
    Shown (a.step N d op) := by
  have hpub : (a.step N d op).Published := (h.step_published_iff op).mpr hkeeps
  have hcountdown {now : TimeVal} (hs : (a.shelved && !a.silenceEnds now) = true) :
      a.enabled = true ∧ 0 < a.minutesLeft now :=
    ⟨h.enabled (Bool.and_eq_true_iff.mp hs).1, countdown_silenced h.silenced now hs⟩
  refine Shown.ofWritten hpub ?_
  cases op with
  | doAlarmEval now now' ts ev_name outcome =>
      obtain ⟨outcome, attr_values⟩ := outcome
      by_cases hskip : ev_name = FORCED_EVAL ∧ a.to_be_evaluated = false
      · obtain ⟨rfl, hdone⟩ := hskip
        rw [TableAlarm.step, act_doAlarmEval_skipped hdone]
        exact fun hs => ⟨h.enabled hs, h.silenced hs⟩
      · cases outcome with
        | error e =>
            rw [TableAlarm.step, act_doAlarmEval_error hskip]
            cases e <;> exact fun hs => ⟨h.enabled hs, h.silenced hs⟩
        | ok res =>
            rw [TableAlarm.step, act_doAlarmEval_ok hskip]
            exact hcountdown
  | timerUpdate ts now =>
      rw [TableAlarm.step, act]
      split
      · exact hcountdown
      · exact fun hs => ⟨h.enabled hs, h.silenced hs⟩
  | ack panel =>
      rw [TableAlarm.step, act, acknowledge]
      split_ifs <;> exact fun hs => ⟨h.enabled hs, h.silenced hs⟩
  | silence now now' =>
      rw [TableAlarm.step, act, TableAlarm.silence]
      dsimp only
      split_ifs with hrefused
      · exact hcountdown
      · exact fun hs => absurd (.inl (countdown_silenced h.silenced now hs)) hrefused
  | shelveCheck now =>
      rw [TableAlarm.step, act, TableAlarm.shelveCheck]
      split_ifs
      · exact hcountdown
      · exact fun hs => ⟨h.enabled hs, h.silenced hs⟩
  | shelve now =>
      rw [TableAlarm.step, act]
      dsimp only
      split_ifs with hallowed
      · rw [Bool.and_eq_true, decide_eq_true_iff] at hallowed
        exact fun _ => hallowed
      · exact fun hs => ⟨h.enabled hs, h.silenced hs⟩
  | modify alm on_command off_command =>
      -- The state of a shelved record is another one.
      intro hs
      have hshelved : a.shelved = true := hs
      have hstate : a.attrState = .shlvd := by
        simp [attrState, h.enabled hshelved, hshelved, h.silenced hshelved]
      have hmodified : a.attrState = if alm.enabled then .norm else .oosrv := hkeeps
      rw [hstate] at hmodified
      split at hmodified <;> cases hmodified
  | enable => exact fun hs => absurd hs Bool.false_ne_true
  | disable => exact fun hs => absurd hs Bool.false_ne_true
  | _ => exact fun hs => ⟨h.enabled hs, h.silenced hs⟩

theorem published_load_iff {alm : AlarmT} {formula_tree : FormulaTree} {ts unset : TimeVal}
    {is_new : Bool} :
    (load alm formula_tree ts unset is_new).Published ↔ alm.enabled = true := by
  change AlarmStateEnum.norm = (if !alm.enabled then .oosrv else .norm) ↔ _
  cases alm.enabled <;> simp

/-- **The published state.** All along a run the attribute shows the state of the alarm, exactly when
the alarm was loaded in service and every operation of the run either writes the attribute or leaves
the state. -/
theorem published_iff_along {alm : AlarmT} {formula_tree : FormulaTree} {ts unset : TimeVal}
    {is_new : Bool} {ops : List (Op R)} :
    let start := load alm formula_tree ts unset is_new
    (∀ past, past <+: ops → (run (TableAlarm.step N d) start past).Published)
      ↔ alm.enabled = true ∧ Along (TableAlarm.step N d) KeepsPublished start ops := by
  intro start
  have hexact (hstart : Shown start) :
      (∀ past, past <+: ops → (run (TableAlarm.step N d) start past).Published)
        ↔ Along (TableAlarm.step N d) KeepsPublished start ops := by
    refine forall_prefix_iff_along (I := Shown) (D := fun _ _ => True) (fun a h => h.published)
      (fun a op h _ hkeeps => h.step hkeeps)
      (fun a op h _ hnot => mt (h.step_published_iff op).mp hnot) hstart ?_
    exact along_of_forall_mem (P := fun _ => True) fun _ _ => trivial
  constructor
  · intro hall
    have henabled : alm.enabled = true := published_load_iff.mp (hall [] (List.nil_prefix))
    have hstart : Shown start := .ofWritten (published_load_iff.mpr henabled) nofun
    exact ⟨henabled, (hexact hstart).mp hall⟩
  · rintro ⟨henabled, halong⟩
    have hstart : Shown start := .ofWritten (published_load_iff.mpr henabled) nofun
    exact (hexact hstart).mpr halong

end TableAlarm

end DshLmc
