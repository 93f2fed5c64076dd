import DshLmc.Proof.AlarmActions

/-!
# Who acknowledged an alarm

An alarm that is announced has to be acknowledged. The operators do it, and so do the end of a
silence and a modification. Nothing else does, and no announcement is lost.
-/

namespace DshLmc

namespace TableAlarm

variable {R : Type} {N : Numbers R} {d : Device} {a : TableAlarm}

def Announces (N : Numbers R) (a : TableAlarm) : Op R → Prop
  | .doAlarmEval _ _ ts ev_name (.ok res, _) =>
      ¬ (ev_name = FORCED_EVAL ∧ a.to_be_evaluated = false) ∧ a.stat = .normal
        ∧ a.statusOnDelay N ts res = true
  | .timerUpdate ts now =>
      a.timerOnDelay ts = true ∧ (a.stat = .normal ∨ a.shelved = true ∧ a.silenceEnds now = true)
  | _ => False

def Acknowledges (a : TableAlarm) : Op R → Prop
  | .doAlarmEval now _ _ ev_name (.ok _, _) =>
      ¬ (ev_name = FORCED_EVAL ∧ a.to_be_evaluated = false) ∧ a.silenceEnds now = true
  | .timerUpdate _ now => a.silenceEnds now = true
  | .ack _ => a.enabled = true ∧ a.shelved = false
  | .modify _ _ _ => True
  | _ => False

theorem ack_ite_iff {raised acknowledged : Bool} {k : AlarmAck} :
    (if raised then AlarmAck.notAck else if acknowledged then .ack else k) = .notAck
      ↔ raised = true ∨ k = .notAck ∧ ¬ acknowledged = true := by
  cases raised <;> cases acknowledged <;> simp

theorem ack_evalUpdate_iff {grp2str : UInt32 → List Char} {startup_complete now now' ts : TimeVal}
    {ev_name attr_values : List Char} {res : FormulaRes R} :
    (a.evalUpdate N grp2str startup_complete now now' ts ev_name res attr_values).alarm.ack = .notAck
      ↔ (a.stat = .normal ∧ a.statusOnDelay N ts res = true)
        ∨ a.ack = .notAck ∧ ¬ a.silenceEnds now = true := by
  have hraised : (a.statusChanges (a.statusOnDelay N ts res) (a.statusOffDelay N ts res)
      && active N res) = true ↔ a.stat = .normal ∧ a.statusOnDelay N ts res = true := by
    unfold statusChanges statusOnDelay statusOffDelay
    cases active N res
    · simp
    · simp [and_comm]
  rw [← hraised]
  exact ack_ite_iff

theorem ack_timerUpdate_iff (h : a.on_counter = 0 ∨ a.off_counter = 0)
    (grp2str : UInt32 → List Char) (startup_complete ts now : TimeVal) :
    (a.timerUpdate grp2str startup_complete ts now).alarm.ack = .notAck
      ↔ (a.timerOnDelay ts = true ∧ (a.stat = .normal ∨ a.shelved = true ∧ a.silenceEnds now = true))
        ∨ a.ack = .notAck ∧ ¬ a.silenceEnds now = true := by
  have hraised : ((a.statusChanges (a.timerOnDelay ts) (a.timerOffDelay ts)
        || a.shelved && !(a.shelved && !a.silenceEnds now)) && a.timerOnDelay ts) = true
      ↔ a.timerOnDelay ts = true
        ∧ (a.stat = .normal ∨ a.shelved = true ∧ a.silenceEnds now = true) := by
    unfold statusChanges
    rcases timerDelays_exclusive h ts with hoff | hoff
    · simp [hoff]
    · rw [hoff]
      cases a.shelved <;> cases a.timerOnDelay ts <;> simp
  rw [← hraised]
  exact ack_ite_iff

theorem ack_step_iff (h : a.on_counter = 0 ∨ a.off_counter = 0) (op : Op R) :
    (a.step N d op).ack = .notAck ↔ Announces N a op ∨ a.ack = .notAck ∧ ¬ Acknowledges a op := by
  have hkept {b : TableAlarm} (hack : b.ack = a.ack) :
      b.ack = .notAck ↔ False ∨ a.ack = .notAck ∧ ¬ False := by
    rw [hack]
    simp
  cases op with
  | doAlarmEval now now' ts ev_name outcome =>
      obtain ⟨outcome, attr_values⟩ := outcome
      by_cases hskip : ev_name = FORCED_EVAL ∧ a.to_be_evaluated = false
      · have hsame : (a.step N d (.doAlarmEval now now' ts ev_name (outcome, attr_values))).ack
            = a.ack := by
          obtain ⟨rfl, hdone⟩ := hskip
          rw [TableAlarm.step, act_doAlarmEval_skipped hdone]
        rw [hsame]
        cases outcome with
        | error e => simp [Announces, Acknowledges]
        | ok res => simp [Announces, Acknowledges, hskip]
      · cases outcome with
        | error e =>
            rw [TableAlarm.step, act_doAlarmEval_error hskip]
            cases e <;> exact hkept rfl
        | ok res =>
            rw [TableAlarm.step, act_doAlarmEval_ok hskip]
            simp only [Announces, Acknowledges, hskip, not_false_eq_true, true_and]
            exact ack_evalUpdate_iff
  | timerUpdate ts now =>
      rw [TableAlarm.step, act]
      split
      · exact ack_timerUpdate_iff h d.groups.grp2str d.startup_complete ts now
      · -- Without a delay and a silence the timer skips the alarm.
        rename_i htimed
        simp only [timed, Bool.or_eq_true, decide_eq_true_iff, not_or, Nat.pos_iff_ne_zero,
          not_not] at htimed
        have hon : a.timerOnDelay ts = false := by simp [timerOnDelay, htimed.1.1.1]
        have hends : a.silenceEnds now = false := by simp [silenceEnds, htimed.2]
        simp [Announces, Acknowledges, hon, hends]
  | ack panel =>
      rw [TableAlarm.step, act, acknowledge]
      cases henabled : a.enabled with
      | false => simp [Announces, Acknowledges, henabled]
      | true =>
          cases hshelved : a.shelved with
          | true => simp [Announces, Acknowledges, hshelved]
          | false => cases panel <;> simp [Announces, Acknowledges, henabled, hshelved]
  | silence now now' =>
      rw [TableAlarm.step, act, TableAlarm.silence]
      dsimp only
      split_ifs <;> exact hkept rfl
  | shelveCheck now =>
      rw [TableAlarm.step, act, TableAlarm.shelveCheck]
      split_ifs <;> exact hkept rfl
  | shelve now =>
      rw [TableAlarm.step, act]
      dsimp only
      split_ifs <;> exact hkept rfl
  | modify alm on_command off_command =>
      have hacked : ¬ AlarmAck.ack = .notAck := by decide
      exact iff_of_false hacked (by simp [Announces, Acknowledges])
  | _ => exact hkept rfl

/-- **Who acknowledged it.** After any run of an alarm it is unacknowledged exactly when some
operation announced it, and none has acknowledged it since. -/
theorem unacknowledged_iff {alm : AlarmT} {formula_tree : FormulaTree} {ts unset : TimeVal}
    {is_new : Bool} {ops : List (Op R)} :
    let start := load alm formula_tree ts unset is_new
    let next := TableAlarm.step N d
    (run next start ops).ack = .notAck ↔ ∃ past op rest, ops = past ++ op :: rest
      ∧ Announces N (run next start past) op
      ∧ Along next (fun a op => ¬ Acknowledges a op) (run next start (past ++ [op])) rest := by
  intro start next
  have hcounters (a : TableAlarm) (op : Op R) (h : a.on_counter = 0 ∨ a.off_counter = 0) :
      (next a op).on_counter = 0 ∨ (next a op).off_counter = 0 := counters_step h op
  have hstart : ¬ start.ack = .notAck := nofun
  exact run_iff_last (P := fun a : TableAlarm => a.ack = .notAck) hcounters
    (fun _ op h => ack_step_iff h op) (.inl rfl) hstart

end TableAlarm

end DshLmc
