import DshLmc.Alarm.AlarmTable
import DshLmc.Library.Run

/-!
# When an alarm is raised

The table keeps two counters and two times for the delays of an alarm. They are memory of the
results of its formula: how many equal ones came last in a row, and when the first of these came. So
the status changes exactly when the results in a row are old enough, whatever the operators, the
timer and failed evaluations did in between.
-/

namespace DshLmc

namespace TableAlarm

variable {R : Type} (N : Numbers R) (d : Device)

/-- An evaluation that returned, and was not a forced one of an alarm that had been evaluated. -/
def counted (a : TableAlarm) : Op R → Option (Bool × TimeVal)
  | .doAlarmEval _ now' _ ev_name (.ok res, _) =>
      if ev_name = FORCED_EVAL ∧ a.to_be_evaluated = false then none else some (active N res, now')
  | _ => none

/-- The results along a run, each with the time it came. -/
def results : TableAlarm → List (Op R) → List (Bool × TimeVal)
  | _, [] => []
  | a, op :: ops => (a.counted N op).toList ++ results (a.step N d op) ops

theorem results_append (a : TableAlarm) (first second : List (Op R)) :
    a.results N d (first ++ second)
      = a.results N d first ++ (run (step N d) a first).results N d second := by
  induction first generalizing a with
  | nil => rfl
  | cons op first ih =>
      change (a.counted N op).toList ++ results N d (a.step N d op) (first ++ second) = _
      rw [ih, ← List.append_assoc]
      rfl

theorem results_concat (a : TableAlarm) (ops : List (Op R)) (op : Op R) :
    a.results N d (ops ++ [op])
      = a.results N d ops ++ ((run (step N d) a ops).counted N op).toList := by
  rw [results_append]
  exact congrArg _ (List.append_nil _)

/-- When the last results equal to `b` came, the latest first. -/
def series (b : Bool) (past : List (Bool × TimeVal)) : List TimeVal :=
  (past.reverse.takeWhile fun p => p.1 == b).map Prod.snd

theorem series_concat (b : Bool) (past : List (Bool × TimeVal)) (p : Bool × TimeVal) :
    series b (past ++ [p]) = if p.1 = b then p.2 :: series b past else [] := by
  unfold series
  rw [List.reverse_append, List.reverse_singleton, List.singleton_append, List.takeWhile_cons]
  by_cases hb : p.1 = b
  · simp [hb]
  · simp [hb]

theorem length_series_le (b : Bool) (past : List (Bool × TimeVal)) :
    (series b past).length ≤ past.length := by
  unfold series
  rw [List.length_map]
  calc (past.reverse.takeWhile fun p => p.1 == b).length
      ≤ past.reverse.length := (List.takeWhile_prefix _).length_le
    _ = past.length := List.length_reverse

theorem series_eq_nil_or (past : List (Bool × TimeVal)) :
    series true past = [] ∨ series false past = [] := by
  rcases List.eq_nil_or_concat past with rfl | ⟨past, ⟨b, time⟩, rfl⟩
  · exact .inl rfl
  · rw [List.concat_eq_append, series_concat, series_concat]
    cases b
    · exact .inl rfl
    · exact .inr rfl

/-- The counter and the time of one kind of result remember the series of it. -/
structure Remembers (counter : UInt32) (since : TimeVal) (times : List TimeVal) : Prop where
  counter : counter = UInt32.ofNat times.length
  since : ∀ first ∈ times.getLast?, since = first

structure Counts (a : TableAlarm) (past : List (Bool × TimeVal)) : Prop where
  on : Remembers a.on_counter a.ts_on_delay (series true past)
  off : Remembers a.off_counter a.ts_off_delay (series false past)

theorem Remembers.nil {since : TimeVal} : Remembers 0 since [] := ⟨rfl, by simp⟩

theorem Remembers.eq_zero_iff {counter : UInt32} {since : TimeVal} {times : List TimeVal}
    (h : Remembers counter since times) (hlen : times.length < 2 ^ 32) :
    counter = 0 ↔ times = [] := by
  rw [h.counter, ← UInt32.toNat_inj, UInt32.toNat_ofNat_of_lt' hlen, ← List.length_eq_zero_iff]
  rfl

theorem Remembers.cons {counter : UInt32} {since time : TimeVal} {times : List TimeVal}
    (h : Remembers counter since times) (hlen : times.length < 2 ^ 32) :
    Remembers (counter + 1) (if counter + 1 = 1 then time else since) (time :: times) where
  counter := by
    rw [h.counter]
    simp
  since := by
    intro first hfirst
    have hone : counter + 1 = 1 ↔ times = [] := by
      rw [← h.eq_zero_iff hlen]
      have hbound := counter.toNat_lt
      rw [← UInt32.toNat_inj, ← UInt32.toNat_inj, UInt32.toNat_add]
      change (counter.toNat + 1) % 2 ^ 32 = 1 ↔ counter.toNat = 0
      omega
    by_cases hnil : times = []
    · subst hnil
      simpa [hone.mpr rfl] using hfirst
    · rw [if_neg (mt hone.mp hnil)]
      refine h.since first ?_
      rwa [List.getLast?_cons_of_ne_nil hnil] at hfirst

variable {N d} {a : TableAlarm} {past : List (Bool × TimeVal)}

theorem one_le_of_delayPassed {counter : UInt32} {delay : Nat} {since ts : TimeVal}
    (h : delayPassed counter delay since ts = true) : counter ≠ 0 := by
  rintro rfl
  simp [delayPassed] at h

theorem Counts.eq_zero_or (h : Counts a past) : a.on_counter = 0 ∨ a.off_counter = 0 := by
  refine (series_eq_nil_or past).imp ?_ ?_
  · intro hnil
    rw [h.on.counter, hnil]
    rfl
  · intro hnil
    rw [h.off.counter, hnil]
    rfl

theorem Counts.timer (h : Counts a past) (grp2str : UInt32 → List Char)
    (startup_complete ts now : TimeVal) :
    Counts (a.timerUpdate grp2str startup_complete ts now).alarm past := by
  have hon : (a.timerUpdate grp2str startup_complete ts now).alarm.on_counter = a.on_counter := by
    refine ite_eq_right_iff.mpr fun hreset => ?_
    have hoff : a.off_counter ≠ 0 := by
      simp only [timerOffDelay, Bool.and_eq_true] at hreset
      exact one_le_of_delayPassed hreset.2.2
    exact (h.eq_zero_or.resolve_right hoff).symm
  have hoff : (a.timerUpdate grp2str startup_complete ts now).alarm.off_counter = a.off_counter := by
    refine ite_eq_right_iff.mpr fun hreset => ?_
    have hon : a.on_counter ≠ 0 := by
      simp only [timerOnDelay, Bool.and_eq_true] at hreset
      exact one_le_of_delayPassed hreset.2.2
    exact (h.eq_zero_or.resolve_left hon).symm
  exact ⟨⟨hon.trans h.on.counter, h.on.since⟩, ⟨hoff.trans h.off.counter, h.off.since⟩⟩

/-- A result is counted with those before it, or starts a new series. -/
theorem Counts.update (h : Counts a past) (hlen : past.length < 2 ^ 32)
    (startup_complete now now' ts : TimeVal) (res : FormulaRes R)
    (attr_values grp msg formula : List Char) :
    Counts (update N startup_complete now now' ts res attr_values grp msg formula a).alarm
      (past ++ [(active N res, now')]) := by
  have hbound (b : Bool) : (series b past).length < 2 ^ 32 := (length_series_le b past).trans_lt hlen
  constructor
  · change Remembers (if active N res then a.on_counter + 1 else 0)
      (if (if active N res then a.on_counter + 1 else 0) = 1 then now' else a.ts_on_delay) _
    rw [series_concat]
    cases active N res with
    | true => exact h.on.cons (hbound true)
    | false => exact Remembers.nil
  · change Remembers (if active N res then 0 else a.off_counter + 1)
      (if (if active N res then 0 else a.off_counter + 1) = 1 then now' else a.ts_off_delay) _
    rw [series_concat]
    cases active N res with
    | true => exact Remembers.nil
    | false => exact h.off.cons (hbound false)

structure SameCounts (a b : TableAlarm) : Prop where
  on_counter : b.on_counter = a.on_counter
  off_counter : b.off_counter = a.off_counter
  ts_on_delay : b.ts_on_delay = a.ts_on_delay
  ts_off_delay : b.ts_off_delay = a.ts_off_delay

theorem Counts.frame {b : TableAlarm} (h : Counts a past) (hsame : SameCounts a b) :
    Counts b past where
  on := by
    rw [hsame.on_counter, hsame.ts_on_delay]
    exact h.on
  off := by
    rw [hsame.off_counter, hsame.ts_off_delay]
    exact h.off

/-- An evaluation that is not counted, an error, or a command. -/
inductive Op.Uncounted (a : TableAlarm) : Op R → Prop
  | skipped (now now' ts : TimeVal) (outcome : Outcome R) (h : a.to_be_evaluated = false) :
      Uncounted a (.doAlarmEval now now' ts FORCED_EVAL outcome)
  | failed (now now' ts : TimeVal) (ev_name : List Char) (e : EvalError) (attr_values : List Char) :
      Uncounted a (.doAlarmEval now now' ts ev_name (.error e, attr_values))
  | eventError (ex_reason ex_desc ex_origin : List Char) :
      Uncounted a (.eventError ex_reason ex_desc ex_origin)
  | ack (panel : AlarmAck) : Uncounted a (.ack panel)
  | silence (now now' : TimeVal) : Uncounted a (.silence now now')
  | shelveCheck (now : TimeVal) : Uncounted a (.shelveCheck now)
  | shelve (now : TimeVal) : Uncounted a (.shelve now)
  | enable : Uncounted a .enable
  | disable : Uncounted a .disable
  | addEvent (evn : List (List Char)) : Uncounted a (.addEvent evn)
  | connect (on_command off_command : Connected) : Uncounted a (.connect on_command off_command)
  | stopNew : Uncounted a .stopNew
  | resetStatistics : Uncounted a .resetStatistics

/-- An operation is counted, the timer's, a modification, or neither. -/
theorem Op.cases_of (a : TableAlarm) (op : Op R) :
    (∃ now now' ts ev_name res attr_values, op = .doAlarmEval now now' ts ev_name (.ok res, attr_values)
        ∧ ¬ (ev_name = FORCED_EVAL ∧ a.to_be_evaluated = false))
      ∨ (∃ ts now, op = .timerUpdate ts now)
      ∨ (∃ alm on_command off_command, op = .modify alm on_command off_command)
      ∨ op.Uncounted a := by
  cases op with
  | doAlarmEval now now' ts ev_name outcome =>
      obtain ⟨outcome, attr_values⟩ := outcome
      by_cases hskip : ev_name = FORCED_EVAL ∧ a.to_be_evaluated = false
      · obtain ⟨rfl, heval⟩ := hskip
        exact .inr (.inr (.inr (.skipped _ _ _ _ heval)))
      · cases outcome with
        | error e => exact .inr (.inr (.inr (.failed _ _ _ _ _ _)))
        | ok res => exact .inl ⟨now, now', ts, ev_name, res, attr_values, rfl, hskip⟩
  | timerUpdate ts now => exact .inr (.inl ⟨ts, now, rfl⟩)
  | modify alm on_command off_command => exact .inr (.inr (.inl ⟨alm, on_command, off_command, rfl⟩))
  | _ =>
      refine .inr (.inr (.inr ?_))
      constructor

theorem Op.Uncounted.counted_eq_none {op : Op R} (h : op.Uncounted a) : a.counted N op = none := by
  cases h with
  | skipped now now' ts outcome hdone =>
      obtain ⟨outcome, attr_values⟩ := outcome
      cases outcome with
      | error e => rfl
      | ok res => exact if_pos ⟨rfl, hdone⟩
  | _ => rfl

/-- What is not counted leaves the counters and the status, and sends nothing. -/
theorem Op.Uncounted.frame {op : Op R} (h : op.Uncounted a) :
    SameCounts a (a.step N d op) ∧ (a.step N d op).stat = a.stat ∧ (a.act N d op).2 = [] := by
  cases h with
  | skipped now now' ts outcome hdone =>
      rw [step, act_doAlarmEval_skipped hdone]
      exact ⟨⟨rfl, rfl, rfl, rfl⟩, rfl, rfl⟩
  | failed now now' ts ev_name e attr_values =>
      by_cases hskip : ev_name = FORCED_EVAL ∧ a.to_be_evaluated = false
      · obtain ⟨rfl, hdone⟩ := hskip
        rw [step, act_doAlarmEval_skipped hdone]
        exact ⟨⟨rfl, rfl, rfl, rfl⟩, rfl, rfl⟩
      · rw [step, act_doAlarmEval_error hskip]
        cases e <;> exact ⟨⟨rfl, rfl, rfl, rfl⟩, rfl, rfl⟩
  | ack panel =>
      simp only [step, act, acknowledge]
      split_ifs <;> exact ⟨⟨rfl, rfl, rfl, rfl⟩, rfl, trivial⟩
  | silence now now' =>
      simp only [step, act, TableAlarm.silence]
      split_ifs <;> exact ⟨⟨rfl, rfl, rfl, rfl⟩, rfl, trivial⟩
  | shelveCheck now =>
      simp only [step, act, TableAlarm.shelveCheck]
      split_ifs <;> exact ⟨⟨rfl, rfl, rfl, rfl⟩, rfl, trivial⟩
  | shelve now =>
      simp only [step, act]
      split_ifs <;> exact ⟨⟨rfl, rfl, rfl, rfl⟩, rfl, trivial⟩
  | _ => exact ⟨⟨rfl, rfl, rfl, rfl⟩, rfl, rfl⟩

/-- The counters and their times are touched by evaluations that return, and by nothing else. -/
theorem Counts.step (h : Counts a past) (hlen : past.length < 2 ^ 32) (op : Op R) :
    Counts (a.step N d op) (past ++ (a.counted N op).toList) := by
  rcases op.cases_of a with ⟨now, now', ts, ev_name, res, attr_values, rfl, hcounted⟩
    | ⟨ts, now, rfl⟩ | ⟨alm, on_command, off_command, rfl⟩ | hop
  · have hresult : a.counted N (.doAlarmEval now now' ts ev_name (.ok res, attr_values))
        = some (active N res, now') := if_neg hcounted
    rw [hresult, Option.toList_some, TableAlarm.step, act_doAlarmEval_ok hcounted]
    have hstart : Counts (a.evalStart ev_name (attr_values.dropLast ++ ['\x7d'])) past :=
      h.frame ⟨rfl, rfl, rfl, rfl⟩
    have hupdated : Counts (a.evalUpdate N d.groups.grp2str d.startup_complete now now' ts ev_name
        res attr_values).alarm (past ++ [(active N res, now')]) :=
      hstart.update hlen _ _ _ _ _ _ _ _ _
    exact hupdated.frame ⟨rfl, rfl, rfl, rfl⟩
  · rw [show a.counted N (.timerUpdate ts now) = none from rfl, Option.toList_none, List.append_nil,
      TableAlarm.step, act]
    split
    · exact h.timer d.groups.grp2str d.startup_complete ts now
    · exact h
  · rw [show a.counted N (.modify alm on_command off_command) = none from rfl, Option.toList_none,
      List.append_nil]
    exact h.frame ⟨rfl, rfl, rfl, rfl⟩
  · rw [hop.counted_eq_none, Option.toList_none, List.append_nil]
    exact h.frame hop.frame.1

/-- **The counters are memory.** In a run of fewer than 2^32 results they remember the series. -/
theorem Counts.run {start : TableAlarm} (h : Counts start []) {ops : List (Op R)}
    (hlen : (start.results N d ops).length < 2 ^ 32) :
    Counts (run (TableAlarm.step N d) start ops) (start.results N d ops) := by
  refine run_history (I := fun ops a => Counts a (start.results N d ops)) h ?_
  intro past op hpre hcounts
  rw [results_concat]
  refine hcounts.step ?_ op
  obtain ⟨rest, rfl⟩ := (List.prefix_append past [op]).trans hpre
  rw [results_append, List.length_append] at hlen
  omega

/-! ### When the status changes -/

def seconds (t : TimeVal) : Nat := t.tv_sec.toUInt32.toNat

/-- More than `delay` seconds lie between two times. A delay that is longer than the time since the
epoch makes the subtraction of the source wrap. -/
def Waited (delay : Nat) (since ts : TimeVal) : Prop :=
  let delay := delay % 2 ^ 32
  seconds since + delay < seconds ts ∨ seconds ts < delay ∧ seconds since + delay < seconds ts + 2 ^ 32

theorem delayPassed_iff {counter : UInt32} {delay : Nat} {since ts : TimeVal} {times : List TimeVal}
    (h : Remembers counter since times) (hlen : times.length < 2 ^ 32) :
    delayPassed counter delay since ts = true ↔ ∃ first ∈ times.getLast?, Waited delay first ts := by
  have hsub : since.tv_sec.toUInt32 < ts.tv_sec.toUInt32 - UInt32.ofNat delay
      ↔ Waited delay since ts := by
    have hts := ts.tv_sec.toUInt32.toNat_lt
    have hdelay := Nat.mod_lt delay (show 0 < 2 ^ 32 by decide)
    rw [UInt32.lt_iff_toNat_lt, UInt32.toNat_sub, UInt32.toNat_ofNat']
    change seconds since < (2 ^ 32 - delay % 2 ^ 32 + seconds ts) % 2 ^ 32 ↔ _
    unfold Waited
    change seconds ts < 2 ^ 32 at hts
    omega
  have hcounter : 1 ≤ counter ↔ times ≠ [] := by
    rw [Ne, ← not_iff_not.mpr (h.eq_zero_iff hlen), UInt32.le_iff_toNat_le, ← UInt32.toNat_inj]
    change 1 ≤ counter.toNat ↔ ¬ counter.toNat = 0
    omega
  unfold delayPassed
  rw [Bool.and_eq_true, decide_eq_true_iff, decide_eq_true_iff, hsub, hcounter]
  constructor
  · rintro ⟨hne, hwaited⟩
    refine ⟨times.getLast hne, List.getLast?_eq_some_getLast hne, ?_⟩
    rwa [← h.since _ (List.getLast?_eq_some_getLast hne)]
  · rintro ⟨first, hfirst, hwaited⟩
    refine ⟨?_, ?_⟩
    · rintro rfl
      cases hfirst
    · rwa [h.since first hfirst]

/-- The operation raises an alarm that is normal. -/
def Raises (N : Numbers R) (a : TableAlarm) (past : List (Bool × TimeVal)) : Op R → Prop
  | .doAlarmEval _ _ ts ev_name (.ok res, _) =>
      ¬ (ev_name = FORCED_EVAL ∧ a.to_be_evaluated = false) ∧ active N res = true
        ∧ (a.on_delay = 0 ∨ ∃ first ∈ (series true past).getLast?, Waited a.on_delay first ts)
  | .timerUpdate ts _ =>
      0 < a.on_delay ∧ ∃ first ∈ (series true past).getLast?, Waited a.on_delay first ts
  | _ => False

def Clears (N : Numbers R) (a : TableAlarm) (past : List (Bool × TimeVal)) : Op R → Prop
  | .doAlarmEval _ _ ts ev_name (.ok res, _) =>
      ¬ (ev_name = FORCED_EVAL ∧ a.to_be_evaluated = false) ∧ active N res = false
        ∧ (a.off_delay = 0 ∨ ∃ first ∈ (series false past).getLast?, Waited a.off_delay first ts)
  | .timerUpdate ts _ =>
      0 < a.off_delay ∧ ∃ first ∈ (series false past).getLast?, Waited a.off_delay first ts
  | .modify _ _ _ => True
  | _ => False

theorem statusOnDelay_iff (h : Counts a past) (hlen : past.length < 2 ^ 32) {ts : TimeVal}
    {res : FormulaRes R} :
    a.statusOnDelay N ts res = true ↔ active N res = true
      ∧ (a.on_delay = 0 ∨ ∃ first ∈ (series true past).getLast?, Waited a.on_delay first ts) := by
  have hpassed : delayPassed _ a.on_delay _ ts = true ↔ _ :=
    delayPassed_iff h.on ((length_series_le true past).trans_lt hlen)
  unfold statusOnDelay onDelayPassed
  by_cases hdelay : a.on_delay = 0
  · simp [hdelay]
  · rw [if_pos (Nat.pos_of_ne_zero hdelay), Bool.and_eq_true, hpassed, or_iff_right hdelay]

theorem statusOffDelay_iff (h : Counts a past) (hlen : past.length < 2 ^ 32) {ts : TimeVal}
    {res : FormulaRes R} :
    a.statusOffDelay N ts res = true ↔ active N res = false
      ∧ (a.off_delay = 0 ∨ ∃ first ∈ (series false past).getLast?, Waited a.off_delay first ts) := by
  have hpassed : delayPassed _ a.off_delay _ ts = true ↔ _ :=
    delayPassed_iff h.off ((length_series_le false past).trans_lt hlen)
  unfold statusOffDelay offDelayPassed
  by_cases hdelay : a.off_delay = 0
  · simp [hdelay]
  · rw [if_pos (Nat.pos_of_ne_zero hdelay), Bool.and_eq_true, hpassed, or_iff_right hdelay,
      Bool.not_eq_true']

theorem timerOnDelay_iff (h : Counts a past) (hlen : past.length < 2 ^ 32) {ts : TimeVal} :
    a.timerOnDelay ts = true ↔ 0 < a.on_delay
      ∧ ∃ first ∈ (series true past).getLast?, Waited a.on_delay first ts := by
  unfold timerOnDelay onDelayPassed
  rw [Bool.and_eq_true, decide_eq_true_iff,
    delayPassed_iff h.on ((length_series_le true past).trans_lt hlen)]

theorem timerOffDelay_iff (h : Counts a past) (hlen : past.length < 2 ^ 32) {ts : TimeVal} :
    a.timerOffDelay ts = true ↔ 0 < a.off_delay
      ∧ ∃ first ∈ (series false past).getLast?, Waited a.off_delay first ts := by
  unfold timerOffDelay offDelayPassed
  rw [Bool.and_eq_true, decide_eq_true_iff,
    delayPassed_iff h.off ((length_series_le false past).trans_lt hlen)]

/-- At most one of the two delays has passed at a timer. -/
theorem timerDelays_exclusive (h : a.on_counter = 0 ∨ a.off_counter = 0) (ts : TimeVal) :
    a.timerOnDelay ts = false ∨ a.timerOffDelay ts = false := by
  refine h.imp ?_ ?_
  · intro hzero
    simp [timerOnDelay, onDelayPassed, delayPassed, hzero]
  · intro hzero
    simp [timerOffDelay, offDelayPassed, delayPassed, hzero]

theorem statusDelays_exclusive (a : TableAlarm) (ts : TimeVal) (res : FormulaRes R) :
    a.statusOnDelay N ts res = false ∨ a.statusOffDelay N ts res = false := by
  unfold statusOnDelay statusOffDelay
  cases active N res
  · simp
  · simp

theorem statusAfter_eq_alarm_iff {status_on_delay status_off_delay : Bool} (h : a.stat = .normal) :
    a.statusAfter status_on_delay status_off_delay = .alarm ↔ status_on_delay = true := by
  unfold statusAfter
  cases status_on_delay <;> cases status_off_delay <;> simp [h]

theorem statusAfter_eq_normal_iff {status_on_delay status_off_delay : Bool} (h : a.stat = .alarm)
    (hexcl : status_on_delay = false ∨ status_off_delay = false) :
    a.statusAfter status_on_delay status_off_delay = .normal ↔ status_off_delay = true := by
  unfold statusAfter
  cases status_on_delay <;> cases status_off_delay <;> simp_all

theorem Op.Uncounted.not_raises {op : Op R} (h : op.Uncounted a) : ¬ Raises N a past op := by
  cases h with
  | skipped now now' ts outcome hdone =>
      obtain ⟨outcome, attr_values⟩ := outcome
      cases outcome with
      | error e => exact id
      | ok res => exact fun h => h.1 ⟨rfl, hdone⟩
  | _ => exact id

theorem Op.Uncounted.not_clears {op : Op R} (h : op.Uncounted a) : ¬ Clears N a past op := by
  cases h with
  | skipped now now' ts outcome hdone =>
      obtain ⟨outcome, attr_values⟩ := outcome
      cases outcome with
      | error e => exact id
      | ok res => exact fun h => h.1 ⟨rfl, hdone⟩
  | _ => exact id

theorem Counts.stat_step (hcounts : Counts a past) (hlen : past.length < 2 ^ 32) (op : Op R) :
    (a.stat = .normal → ((a.step N d op).stat = .alarm ↔ Raises N a past op))
      ∧ (a.stat = .alarm → ((a.step N d op).stat = .normal ↔ Clears N a past op)) := by
  rcases op.cases_of a with ⟨now, now', ts, ev_name, res, attr_values, rfl, hcounted⟩
    | ⟨ts, now, rfl⟩ | ⟨alm, on_command, off_command, rfl⟩ | hop
  · have hstat : (a.step N d (.doAlarmEval now now' ts ev_name (.ok res, attr_values))).stat
        = a.statusAfter (a.statusOnDelay N ts res) (a.statusOffDelay N ts res) := by
      rw [TableAlarm.step, act_doAlarmEval_ok hcounted]
      rfl
    rw [hstat]
    constructor
    · intro hnormal
      rw [statusAfter_eq_alarm_iff hnormal, statusOnDelay_iff hcounts hlen]
      exact (and_iff_right hcounted).symm
    · intro halarm
      rw [statusAfter_eq_normal_iff halarm (a.statusDelays_exclusive ts res),
        statusOffDelay_iff hcounts hlen]
      exact (and_iff_right hcounted).symm
  · have hstat : (a.step N d (.timerUpdate ts now)).stat
        = a.statusAfter (a.timerOnDelay ts) (a.timerOffDelay ts) := by
      rw [TableAlarm.step, act]
      split
      · rfl
      · rename_i htimed
        simp only [timed, Bool.or_eq_true, decide_eq_true_iff, not_or, Nat.not_lt] at htimed
        have hon : a.on_delay = 0 := by omega
        have hoff : a.off_delay = 0 := by omega
        simp [statusAfter, timerOnDelay, timerOffDelay, hon, hoff]
    rw [hstat]
    constructor
    · intro hnormal
      rw [statusAfter_eq_alarm_iff hnormal, timerOnDelay_iff hcounts hlen]
      rfl
    · intro halarm
      rw [statusAfter_eq_normal_iff halarm (timerDelays_exclusive hcounts.eq_zero_or ts),
        timerOffDelay_iff hcounts hlen]
      rfl
  · refine ⟨fun hnormal => ?_, fun _ => iff_of_true rfl trivial⟩
    exact iff_of_false (by rintro ⟨⟩) id
  · have hstat : (a.step N d op).stat = a.stat := hop.frame.2.1
    rw [hstat]
    refine ⟨fun hnormal => ?_, fun halarm => ?_⟩
    · exact iff_of_false (by simp [hnormal]) hop.not_raises
    · exact iff_of_false (by simp [halarm]) hop.not_clears

/-- **When the status changes.** After any run of an alarm from its load, an operation raises it, or
clears it, exactly when the last results in a row are of the kind and old enough. -/
theorem status_step_iff {alm : AlarmT} {formula_tree : FormulaTree} {ts unset : TimeVal}
    {is_new : Bool} {ops : List (Op R)}
    (hlen : ((load alm formula_tree ts unset is_new).results N d ops).length < 2 ^ 32) (op : Op R) :
    let a := run (TableAlarm.step N d) (load alm formula_tree ts unset is_new) ops
    let past := (load alm formula_tree ts unset is_new).results N d ops
    (a.stat = .normal → ((a.step N d op).stat = .alarm ↔ Raises N a past op))
      ∧ (a.stat = .alarm → ((a.step N d op).stat = .normal ↔ Clears N a past op)) :=
  (Counts.run ⟨Remembers.nil, Remembers.nil⟩ hlen).stat_step hlen op

/-- An alarm for a temperature, with a delay of ten seconds. -/
def hotAlarm : TableAlarm :=
  load ⟨"hot".toList, "sys/tg/1/temp>5".toList, 10, 0, "fault".toList, 5, 0, "too hot".toList, [], [],
    true⟩ (.node .val_rID ['1'] 0 []) ⟨100, 0⟩ ⟨0, 0⟩ false

def hotAt (sec : Int32) : Op Int :=
  .doAlarmEval ⟨sec, 0⟩ ⟨sec, 0⟩ ⟨sec, 0⟩ "sys/tg/1/temp".toList (.ok ⟨1, .valid, [], [], []⟩, ['\x7b'])

theorem status_step_iff_hotAlarm :
    let d : Device := ⟨[], ⟨50, 0⟩⟩
    let ops := [hotAt 200, hotAt 205]
    let a := run (TableAlarm.step wholeNumbers d) hotAlarm ops
    let past := hotAlarm.results wholeNumbers d ops
    let timer : Op Int := .timerUpdate ⟨211, 0⟩ ⟨211, 0⟩
    (a.stat = .normal → ((a.step wholeNumbers d timer).stat = .alarm
        ↔ Raises wholeNumbers a past timer))
      ∧ (a.stat = .alarm → ((a.step wholeNumbers d timer).stat = .normal
        ↔ Clears wholeNumbers a past timer)) :=
  status_step_iff (by decide) _

end TableAlarm

end DshLmc
