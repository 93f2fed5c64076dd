import DshLmc.Proof.AlarmDelays

/-!
# The actions of an alarm

An alarm can have a command that is sent when it is raised and one that is sent when it is cleared.
A shelving that ends is announced as well, so that a raised alarm may send the first command again.
This is the only way in which the commands get out of turn.
-/

namespace DshLmc

/-- A command without the text it carries. -/
def Cmd.untold (c : Cmd) : Cmd := { c with arg_s1 := [] }

/-- The first `n` commands of two in turns. -/
def turns (on off : Cmd) : Nat → List Cmd
  | 0 => []
  | n + 1 => on :: turns off on n

theorem turns_succ (on off : Cmd) (n : Nat) :
    turns on off (n + 1) = turns on off n ++ [if n % 2 = 0 then on else off] := by
  induction n generalizing on off with
  | zero => rfl
  | succ n ih =>
      have hparity : (if n % 2 = 0 then off else on) = if (n + 1) % 2 = 0 then on else off := by
        rcases Nat.mod_two_eq_zero_or_one n with h | h
        · rw [if_pos h, if_neg (by omega)]
        · rw [if_neg (by omega), if_pos (by omega)]
      calc turns on off (n + 1 + 1)
          = on :: turns off on (n + 1) := rfl
        _ = on :: (turns off on n ++ [if n % 2 = 0 then off else on]) := by rw [ih]
        _ = turns on off (n + 1) ++ [if (n + 1) % 2 = 0 then on else off] := by rw [hparity]; rfl

namespace TableAlarm

variable {R : Type} {N : Numbers R} {d : Device} {a : TableAlarm}

/-- Of the counters one is always zero. -/
theorem counters_step (h : a.on_counter = 0 ∨ a.off_counter = 0) (op : Op R) :
    (a.step N d op).on_counter = 0 ∨ (a.step N d op).off_counter = 0 := by
  rcases op.cases_of a with ⟨now, now', ts, ev_name, res, attr_values, rfl, hcounted⟩
    | ⟨ts, now, rfl⟩ | ⟨alm, on_command, off_command, rfl⟩ | hop
  · rw [TableAlarm.step, act_doAlarmEval_ok hcounted]
    change (if active N res then a.on_counter + 1 else 0) = 0
      ∨ (if active N res then 0 else a.off_counter + 1) = 0
    cases active N res
    · exact .inl rfl
    · exact .inr rfl
  · rw [TableAlarm.step, act]
    split
    · refine h.imp ?_ ?_
      · intro hzero
        change (if _ then 0 else a.on_counter) = 0
        rw [hzero, ite_self]
      · intro hzero
        change (if _ then 0 else a.off_counter) = 0
        rw [hzero, ite_self]
    · exact h
  · exact h
  · rw [hop.frame.1.on_counter, hop.frame.1.off_counter]
    exact h

/-- The shelving of a raised alarm ends, and its delay has passed. -/
def AnnouncesAgain (a : TableAlarm) : Op R → Prop
  | .timerUpdate ts now =>
      a.shelved = true ∧ a.silenceEnds now = true ∧ a.timerOnDelay ts = true ∧ a.stat = .alarm
  | _ => False

/-- The operation comes after the start, and does not connect the actions anew. -/
def Op.Sends (d : Device) : Op R → Prop
  | .doAlarmEval _ _ ts _ _ => started d.startup_complete ts = true
  | .timerUpdate ts _ => started d.startup_complete ts = true
  | .modify _ _ _ => False
  | .connect _ _ => False
  | _ => True

structure Wired (a : TableAlarm) : Prop where
  on : a.dp_a = true
  off : a.dp_n = true
  counters : a.on_counter = 0 ∨ a.off_counter = 0

inductive Answer (a : TableAlarm) (again : Prop) : AlarmStat → List Cmd → Prop
  | silent (h : ¬ again) : Answer a again a.stat []
  | raised (text : List Char) (h : a.stat = .alarm ↔ again) :
      Answer a again .alarm [a.actionOn text]
  | cleared (text : List Char) (halarm : a.stat = .alarm) (h : ¬ again) :
      Answer a again .normal [a.actionOff text]

/-- At most one delay has passed, and a raised alarm is announced when its shelving has ended. -/
theorem Answer.of_delays {on off unshelved : Bool} {again : Prop} (text : List Char)
    (hexcl : on = false ∨ off = false)
    (hagain : again ↔ unshelved = true ∧ on = true ∧ a.stat = .alarm) :
    Answer a again (a.statusAfter on off)
      ((if on && (decide (a.stat = .normal) || unshelved) then [a.actionOn text] else [])
        ++ if off && decide (a.stat = .alarm) then [a.actionOff text] else []) := by
  cases on with
  | true =>
      obtain rfl : off = false := hexcl.resolve_left (by simp)
      cases hstat : a.stat with
      | normal => exact .raised text (by simp [hagain, hstat])
      | alarm =>
          cases unshelved with
          | true => exact .raised text (by simp [hagain, hstat])
          | false =>
              have hsilent : ¬ again := by simp [hagain]
              simpa [statusAfter, hstat] using Answer.silent (a := a) hsilent
  | false =>
      have hsilent : ¬ again := by simp [hagain]
      cases off with
      | false => simpa [statusAfter] using Answer.silent (a := a) hsilent
      | true =>
          cases hstat : a.stat with
          | normal => simpa [statusAfter, hstat] using Answer.silent (a := a) hsilent
          | alarm => simpa [statusAfter] using Answer.cleared (a := a) text hstat hsilent

theorem Wired.answer_update (h : Wired a) {startup_complete : TimeVal} (now now' : TimeVal)
    {ts : TimeVal} (hstarted : started startup_complete ts = true) (res : FormulaRes R)
    (attr_values grp msg formula : List Char) :
    let updated := update N startup_complete now now' ts res attr_values grp msg formula a
    Answer a False updated.alarm.stat updated.list := by
  intro updated
  have hactive : (a.statusOnDelay N ts res = true → active N res = true)
      ∧ (a.statusOffDelay N ts res = true → active N res = false) := by
    unfold statusOnDelay statusOffDelay
    cases active N res <;> simp
  have hexcl := a.statusDelays_exclusive (N := N) ts res
  have hraised : (a.statusChanges (a.statusOnDelay N ts res) (a.statusOffDelay N ts res)
        && active N res && a.dp_a && started startup_complete ts)
      = (a.statusOnDelay N ts res && (decide (a.stat = .normal) || false)) := by
    rw [h.on, hstarted, statusChanges]
    revert hactive
    cases a.statusOnDelay N ts res <;> cases a.statusOffDelay N ts res <;> simp +contextual
  have hcleared : (a.statusChanges (a.statusOnDelay N ts res) (a.statusOffDelay N ts res)
        && !active N res && a.dp_n && started startup_complete ts)
      = (a.statusOffDelay N ts res && decide (a.stat = .alarm)) := by
    rw [h.off, hstarted, statusChanges]
    revert hactive
    cases a.statusOnDelay N ts res <;> cases a.statusOffDelay N ts res <;> simp +contextual
  have hnever : False ↔ false = true ∧ a.statusOnDelay N ts res = true ∧ a.stat = .alarm := by
    simp
  have hanswer := Answer.of_delays (actionText a.name grp msg attr_values formula) hexcl hnever
  rw [← hraised, ← hcleared] at hanswer
  exact hanswer

theorem Wired.answer_timer (h : Wired a) (grp2str : UInt32 → List Char)
    {startup_complete ts : TimeVal} (now : TimeVal) (hstarted : started startup_complete ts = true) :
    let updated := timerUpdate grp2str startup_complete ts now a
    Answer a (AnnouncesAgain (R := R) a (.timerUpdate ts now)) updated.alarm.stat updated.list := by
  intro updated
  have hexcl : a.timerOnDelay ts = false ∨ a.timerOffDelay ts = false :=
    timerDelays_exclusive h.counters ts
  let unshelved := a.shelved && !(a.shelved && !a.silenceEnds now)
  have hagain : AnnouncesAgain (R := R) a (.timerUpdate ts now)
      ↔ unshelved = true ∧ a.timerOnDelay ts = true ∧ a.stat = .alarm := by
    have hunshelved : unshelved = true ↔ a.shelved = true ∧ a.silenceEnds now = true := by
      dsimp only [unshelved]
      cases a.shelved <;> simp
    rw [hunshelved, and_assoc]
    rfl
  have hraised : ((a.statusChanges (a.timerOnDelay ts) (a.timerOffDelay ts) || unshelved)
        && a.timerOnDelay ts && a.dp_a && started startup_complete ts)
      = (a.timerOnDelay ts && (decide (a.stat = .normal) || unshelved)) := by
    rw [h.on, hstarted, statusChanges]
    rcases hexcl with hoff | hoff <;> rw [hoff]
    · simp
    · cases a.timerOnDelay ts <;> simp
  have hcleared : ((a.statusChanges (a.timerOnDelay ts) (a.timerOffDelay ts) || unshelved)
        && !a.timerOnDelay ts && a.timerOffDelay ts && decide (a.stat = .alarm) && a.dp_n
        && started startup_complete ts)
      = (a.timerOffDelay ts && decide (a.stat = .alarm)) := by
    rw [h.off, hstarted, statusChanges]
    rcases hexcl with hoff | hoff <;> rw [hoff]
    · cases a.timerOffDelay ts <;> cases a.stat <;> simp
    · simp
  have hanswer := Answer.of_delays
    (actionText a.name (grp2str a.grp) a.msg a.attr_values_delay a.formula) hexcl hagain
  rw [← hraised, ← hcleared] at hanswer
  exact hanswer

structure SameActions (a b : TableAlarm) : Prop where
  cmd_name_a : b.cmd_name_a = a.cmd_name_a
  cmd_name_n : b.cmd_name_n = a.cmd_name_n
  dp_a : b.dp_a = a.dp_a
  dp_n : b.dp_n = a.dp_n
  send_arg_a : b.send_arg_a = a.send_arg_a
  send_arg_n : b.send_arg_n = a.send_arg_n

theorem Op.Sends.sameActions {op : Op R} (h : op.Sends d) : SameActions a (a.step N d op) := by
  cases op with
  | doAlarmEval now now' ts ev_name outcome =>
      obtain ⟨outcome, attr_values⟩ := outcome
      by_cases hskip : ev_name = FORCED_EVAL ∧ a.to_be_evaluated = false
      · obtain ⟨rfl, hdone⟩ := hskip
        rw [TableAlarm.step, act_doAlarmEval_skipped hdone]
        exact ⟨rfl, rfl, rfl, rfl, rfl, rfl⟩
      · cases outcome with
        | error e =>
            rw [TableAlarm.step, act_doAlarmEval_error hskip]
            cases e <;> exact ⟨rfl, rfl, rfl, rfl, rfl, rfl⟩
        | ok res =>
            rw [TableAlarm.step, act_doAlarmEval_ok hskip]
            exact ⟨rfl, rfl, rfl, rfl, rfl, rfl⟩
  | timerUpdate ts now =>
      rw [TableAlarm.step, act]
      split <;> exact ⟨rfl, rfl, rfl, rfl, rfl, rfl⟩
  | ack panel =>
      rw [TableAlarm.step, act, acknowledge]
      split_ifs <;> exact ⟨rfl, rfl, rfl, rfl, rfl, rfl⟩
  | silence now now' =>
      rw [TableAlarm.step, act, TableAlarm.silence]
      dsimp only
      split_ifs <;> exact ⟨rfl, rfl, rfl, rfl, rfl, rfl⟩
  | shelveCheck now =>
      rw [TableAlarm.step, act, TableAlarm.shelveCheck]
      split_ifs <;> exact ⟨rfl, rfl, rfl, rfl, rfl, rfl⟩
  | shelve now =>
      rw [TableAlarm.step, act]
      dsimp only
      split_ifs <;> exact ⟨rfl, rfl, rfl, rfl, rfl, rfl⟩
  | modify alm on_command off_command => exact h.elim
  | connect on_command off_command => exact h.elim
  | _ => exact ⟨rfl, rfl, rfl, rfl, rfl, rfl⟩

theorem Wired.step (h : Wired a) {op : Op R} (hop : op.Sends d) : Wired (a.step N d op) where
  on := hop.sameActions.dp_a.trans h.on
  off := hop.sameActions.dp_n.trans h.off
  counters := counters_step h.counters op

/-- What an operation answers, and that it announces a raised alarm only in one case. -/
theorem Wired.answer (h : Wired a) {op : Op R} (hop : op.Sends d) :
    Answer a (AnnouncesAgain a op) (a.step N d op).stat (a.act N d op).2 := by
  rcases op.cases_of a with ⟨now, now', ts, ev_name, res, attr_values, rfl, hcounted⟩
    | ⟨ts, now, rfl⟩ | ⟨alm, on_command, off_command, rfl⟩ | huncounted
  · rw [TableAlarm.step, act_doAlarmEval_ok hcounted]
    exact h.answer_update now now' hop res (attr_values.dropLast ++ ['\x7d'])
      (d.groups.grp2str a.grp) a.msg a.formula
  · rw [TableAlarm.step, act]
    split
    · exact h.answer_timer d.groups.grp2str now hop
    · -- Without a silence nothing is shelved, and no delay can pass.
      rename_i htimed
      refine .silent ?_
      rintro ⟨hshelved, -⟩
      simp [timed, hshelved] at htimed
  · exact hop.elim
  · obtain ⟨-, hstat, hlist⟩ := huncounted.frame (N := N) (d := d)
    rw [hstat, hlist]
    refine .silent ?_
    cases huncounted <;> exact id

structure Sending where
  alarm : TableAlarm
  sent : List Cmd

variable (N d) in
def sendStep (s : Sending) (op : Op R) : Sending :=
  ⟨s.alarm.step N d op, s.sent ++ (s.alarm.act N d op).2⟩

/-- The actions came in turns, and the last one is that of the status. -/
structure InTurns (s : Sending) : Prop where
  turns : s.sent.map Cmd.untold
    = turns (s.alarm.actionOn []) (s.alarm.actionOff []) s.sent.length
  stat : s.alarm.stat = .alarm ↔ s.sent.length % 2 = 1

theorem SameActions.actions_eq {b : TableAlarm} (h : SameActions a b) :
    b.actionOn [] = a.actionOn [] ∧ b.actionOff [] = a.actionOff [] := by
  unfold actionOn actionOff
  rw [h.cmd_name_a, h.cmd_name_n, h.send_arg_a, h.send_arg_n]
  exact ⟨rfl, rfl⟩

/-- The actions stay in turns unless a raised alarm is announced again. -/
theorem InTurns.step_iff {s : Sending} (h : InTurns s) (hwired : Wired s.alarm) {op : Op R}
    (hop : op.Sends d) : InTurns (sendStep N d s op) ↔ ¬ AnnouncesAgain s.alarm op := by
  obtain ⟨hon, hoff⟩ := hop.sameActions (N := N) (a := s.alarm).actions_eq
  have hanswer := hwired.answer (N := N) hop
  unfold sendStep
  generalize hnext : s.alarm.step N d op = next at hanswer hon hoff
  generalize hlist : (s.alarm.act N d op).2 = list at hanswer
  generalize hstat : next.stat = stat at hanswer
  cases hanswer with
  | silent hagain =>
      refine iff_of_true ⟨?_, ?_⟩ hagain
      · simpa [hon, hoff] using h.turns
      · simpa [hstat] using h.stat
  | raised text hagain =>
      have hlen : (s.sent ++ [s.alarm.actionOn text]).length = s.sent.length + 1 :=
        List.length_append
      constructor
      · -- Two times the first command: the number is even, and the alarm is raised.
        intro hturns halarm
        have hodd : s.sent.length % 2 = 1 := h.stat.mp (hagain.mpr halarm)
        have hodd' : (s.sent ++ [s.alarm.actionOn text]).length % 2 = 1 := hturns.stat.mp hstat
        omega
      · intro hnot
        have heven : s.sent.length % 2 = 0 := by
          have hnormal : ¬ s.sent.length % 2 = 1 := mt (h.stat.mpr · |> hagain.mp) hnot
          omega
        constructor
        · dsimp only
          rw [List.map_append, h.turns, hlen, turns_succ, if_pos heven, hon, hoff]
          rfl
        · dsimp only
          rw [hstat, hlen]
          exact iff_of_true rfl (by omega)
  | cleared text halarm hagain =>
      have hlen : (s.sent ++ [s.alarm.actionOff text]).length = s.sent.length + 1 :=
        List.length_append
      have hodd : s.sent.length % 2 = 1 := h.stat.mp halarm
      refine iff_of_true ⟨?_, ?_⟩ hagain
      · dsimp only
        rw [List.map_append, h.turns, hlen, turns_succ, if_neg (by omega), hon, hoff]
        rfl
      · dsimp only
        rw [hstat, hlen]
        exact iff_of_false (by simp) (by omega)

/-- **The actions.** In a run of an alarm whose two actions are connected the commands come in turns,
the first one for every time it is raised and the second for every time it is cleared, exactly when
no operation announces a raised alarm again. -/
theorem inTurns_iff_along {alm : AlarmT} {formula_tree : FormulaTree} {ts unset : TimeVal}
    {is_new : Bool} {on_command off_command : Connected} {ops : List (Op R)}
    (hon : ((load alm formula_tree ts unset is_new).connect on_command off_command).dp_a = true)
    (hoff : ((load alm formula_tree ts unset is_new).connect on_command off_command).dp_n = true)
    (hops : ∀ op ∈ ops, op.Sends d) :
    let start : Sending := ⟨(load alm formula_tree ts unset is_new).connect on_command off_command, []⟩
    (∀ past, past <+: ops → InTurns (run (sendStep N d) start past))
      ↔ Along (sendStep N d) (fun s op => ¬ AnnouncesAgain s.alarm op) start ops := by
  intro start
  have hstart : Wired start.alarm ∧ InTurns start :=
    ⟨⟨hon, hoff, .inl rfl⟩, rfl, iff_of_false nofun nofun⟩
  refine forall_prefix_iff_along (I := fun s => Wired s.alarm ∧ InTurns s)
    (D := fun _ op => Op.Sends d op) (fun s h => h.2) ?_ ?_ hstart (along_of_forall_mem hops)
  · rintro s op ⟨hwired, hturns⟩ hop hnot
    exact ⟨hwired.step hop, (hturns.step_iff hwired hop).mpr hnot⟩
  · rintro s op ⟨hwired, hturns⟩ hop hagain
    exact mt (hturns.step_iff hwired hop).mp hagain

/-- The alarm with a fan that is switched on and off. -/
def fanAlarm : AlarmT :=
  { hotAlarm.toAlarmT with cmd_name_a := "sys/fan/1/on".toList, cmd_name_n := "sys/fan/1/off".toList }

theorem inTurns_iff_along_fanAlarm :
    let d : Device := ⟨[], ⟨50, 0⟩⟩
    let ops : List (Op Int) := [hotAt 200, .timerUpdate ⟨211, 0⟩ ⟨211, 0⟩]
    let start : Sending := ⟨(load fanAlarm hotAlarm.formula_tree ⟨100, 0⟩ ⟨0, 0⟩ false).connect
      ⟨true, true⟩ ⟨true, true⟩, []⟩
    (∀ past, past <+: ops → InTurns (run (sendStep wholeNumbers d) start past))
      ↔ Along (sendStep wholeNumbers d) (fun s op => ¬ AnnouncesAgain s.alarm op) start ops :=
  inTurns_iff_along rfl rfl (List.forall_mem_cons.mpr ⟨rfl, List.forall_mem_singleton.mpr rfl⟩)

end TableAlarm

end DshLmc
