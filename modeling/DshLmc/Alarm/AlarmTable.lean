import DshLmc.Alarm.AlarmGrammar
import DshLmc.Alarm.FormulaEval
import Mathlib.Data.List.Sort

/-!
# The alarms of the table

`alarm_t` as the alarm handler keeps it, and what happens to one of them: an evaluation of its
formula, the timer, and the commands of the operators. The minutes of a silence are computed by the
source in `double`, which is exact for the clock's microseconds, and here in whole numbers.
-/

namespace DshLmc

/-- `S_NORMAL` and `S_ALARM`. -/
inductive AlarmStat where
  | normal
  | alarm
deriving DecidableEq

inductive AlarmAck where
  | notAck
  | ack
deriving DecidableEq

/-- `alarm_t`. Of the proxies for the actions only whether there is one is kept. -/
structure TableAlarm extends AlarmT where
  formula_tree : FormulaTree
  attr_value : AlarmStateEnum
  quality : AttrQuality
  ex_reason : List Char
  ex_desc : List Char
  ex_origin : List Char
  ts : TimeVal
  stat : AlarmStat
  ack : AlarmAck
  shelved : Bool
  on_counter : UInt32
  off_counter : UInt32
  freq_counter : UInt32
  done : Bool
  to_be_evaluated : Bool
  s_event : List (List Char)
  is_new : Bool
  ts_on_delay : TimeVal
  ts_off_delay : TimeVal
  ts_time_silenced : TimeVal
  silenced : Int
  attr_values : List Char
  attr_values_delay : List Char
  dp_a : Bool
  send_arg_a : Bool
  dp_n : Bool
  send_arg_n : Bool

/-- What the command thread is told to send: `cmd_t`. -/
structure Cmd where
  dp : List Char
  arg_s1 : List Char
  arg_s2 : List Char
  arg_s3 : List Char
  arg_b : Bool
deriving DecidableEq

/-- `alarm_t::grp2str`. The table is a `map`, so its names come in order. -/
def GroupTable.grp2str (table : GroupTable) (grp : UInt32) : List Char :=
  let sorted := table.mergeSort fun g g' => !decide (g'.1 < g.1)
  if grp = grAll then grAllName
  else if grp = grNone then (sorted.head?.map Prod.fst).getD grNoneName
  else
    let named := sorted.filter fun g => g.1 ≠ grAllName ∧ grp &&& g.2 ≠ 0
    ['|'].intercalate (named.map Prod.fst)

/-- The device of a command: what stands before its third slash. -/
def commandDevice (cmd_name : List Char) : List Char :=
  let rec go : Nat → List Char → List Char
    | _, [] => []
    | j, c :: rest =>
        let j := if c = '/' then j + 1 else j
        if j < 3 then c :: go j rest else go j rest
  go 0 cmd_name

/-- The name of a command at its device: what stands behind, without slashes. -/
def commandAction (cmd_name : List Char) : List Char :=
  let rec go : Nat → List Char → List Char
    | _, [] => []
    | j, c :: rest =>
        let j := if c = '/' then j + 1 else j
        if j < 3 then go j rest else if c = '/' then go j rest else c :: go j rest
  go 0 cmd_name

namespace TableAlarm

def usecs (t : TimeVal) : Int := t.tv_sec.toInt * 1000000 + t.tv_usec.toInt

def elapsed (a : TableAlarm) (now : TimeVal) : Int := usecs now - usecs a.ts_time_silenced

def silenceEnds (a : TableAlarm) (now : TimeVal) : Bool :=
  decide (0 < a.silenced) && decide (a.silent_time * 60000000 ≤ a.elapsed now)

def minutesLeft (a : TableAlarm) (now : TimeVal) : Int :=
  if 0 < a.silenced then
    if a.elapsed now < a.silent_time * 60000000 then a.silent_time - a.elapsed now / 60000000 else 0
  else a.silenced

/-- The countdown in `silence` and `shelve`. -/
def countdown (a : TableAlarm) (now : TimeVal) : TableAlarm :=
  { a with silenced := a.minutesLeft now, shelved := a.shelved && !a.silenceEnds now }

/-- The countdown in `update` and `timer_update`: a silence that ends acknowledges the alarm. -/
def countdownAck (a : TableAlarm) (now : TimeVal) : TableAlarm :=
  { a.countdown now with
    is_new := a.is_new && !a.silenceEnds now, ack := if a.silenceEnds now then .ack else a.ack }

/-- Seconds are compared as unsigned numbers. -/
def delayPassed (counter : UInt32) (delay : Nat) (since ts : TimeVal) : Bool :=
  decide (1 ≤ counter) && decide (since.tv_sec.toUInt32 < ts.tv_sec.toUInt32 - UInt32.ofNat delay)

def onDelayPassed (a : TableAlarm) (ts : TimeVal) : Bool :=
  delayPassed a.on_counter a.on_delay a.ts_on_delay ts

def offDelayPassed (a : TableAlarm) (ts : TimeVal) : Bool :=
  delayPassed a.off_counter a.off_delay a.ts_off_delay ts

/-- The semicolons of a value would end it. -/
def commas (text : List Char) : List Char := text.map fun c => if c = ';' then ',' else c

def actionText (alm_name grp msg attr_values formula : List Char) : List Char :=
  "name=".toList ++ alm_name ++ ";groups=".toList ++ grp ++ ";msg=".toList ++ commas msg
    ++ ";values=".toList ++ commas attr_values ++ ";formula=".toList ++ formula

/-- No action is sent in the first ten seconds after the start. -/
def started (startup_complete ts : TimeVal) : Bool :=
  decide (10 < ts.tv_sec.toInt - startup_complete.tv_sec.toInt)

def actionOn (a : TableAlarm) (text : List Char) : Cmd :=
  ⟨commandDevice a.cmd_name_a, text, commandAction a.cmd_name_a, a.cmd_name_a, a.send_arg_a⟩

def actionOff (a : TableAlarm) (text : List Char) : Cmd :=
  ⟨commandDevice a.cmd_name_n, text, commandAction a.cmd_name_n, a.cmd_name_n, a.send_arg_n⟩

variable {R : Type} (N : Numbers R)

/-- `(bool)(res.value != 0)`. -/
def active (res : FormulaRes R) : Bool := !N.eq res.value (N.ofNat 0)

def statusOnDelay (a : TableAlarm) (ts : TimeVal) (res : FormulaRes R) : Bool :=
  if 0 < a.on_delay then active N res && a.onDelayPassed ts else active N res

def statusOffDelay (a : TableAlarm) (ts : TimeVal) (res : FormulaRes R) : Bool :=
  if 0 < a.off_delay then !active N res && a.offDelayPassed ts else !active N res

structure Updated where
  ret_changed : Bool
  alarm : TableAlarm
  list : List Cmd

def statusChanges (a : TableAlarm) (status_on_delay status_off_delay : Bool) : Bool :=
  status_on_delay && decide (a.stat = .normal) || status_off_delay && decide (a.stat = .alarm)

def statusAfter (a : TableAlarm) (status_on_delay status_off_delay : Bool) : AlarmStat :=
  if status_on_delay then .alarm else if status_off_delay then .normal else a.stat

/-- `alarm_table::update`, for an alarm of the table. The clock is read for the silence and again
for the delays. -/
def update (startup_complete now now' ts : TimeVal) (res : FormulaRes R)
    (attr_values grp msg formula : List Char) (a : TableAlarm) : Updated :=
  let a := a.countdownAck now
  let status_on_delay := a.statusOnDelay N ts res
  let status_off_delay := a.statusOffDelay N ts res
  let ret_changed := a.statusChanges status_on_delay status_off_delay
  let raised := ret_changed && active N res
  let cleared := ret_changed && !active N res
  let text := actionText a.name grp msg attr_values formula
  let on_counter := if active N res then a.on_counter + 1 else 0
  let off_counter := if active N res then 0 else a.off_counter + 1
  { ret_changed := ret_changed
    list :=
      (if raised && a.dp_a && started startup_complete ts then [a.actionOn text] else [])
        ++ if cleared && a.dp_n && started startup_complete ts then [a.actionOff text] else []
    alarm := { a with
      quality := res.quality
      ex_reason := res.ex_reason
      ex_desc := res.ex_desc
      ex_origin := res.ex_origin
      ack := if raised then .notAck else a.ack
      ts := if ret_changed then ts else a.ts
      is_new := raised || a.is_new
      stat := a.statusAfter status_on_delay status_off_delay
      on_counter := on_counter
      off_counter := off_counter
      attr_values_delay := attr_values
      ts_on_delay := if on_counter = 1 then now' else a.ts_on_delay
      ts_off_delay := if off_counter = 1 then now' else a.ts_off_delay } }

def statusState : AlarmStat → AlarmAck → AlarmStateEnum
  | .normal, .ack => .norm
  | .alarm, .notAck => .unack
  | .alarm, .ack => .acked
  | .normal, .notAck => .rtnun

/-- The state that `do_alarm_eval` and `ack` give to the attribute of an alarm. -/
def attrState (a : TableAlarm) : AlarmStateEnum :=
  if !a.enabled then .oosrv
  else if a.shelved && decide (0 < a.silenced) then .shlvd
  else statusState a.stat a.ack

/-- The state that `timer_update` gives to it. -/
def timerAttrState (a : TableAlarm) (status_on_delay status_off_delay : Bool) : AlarmStateEnum :=
  if !a.enabled then .oosrv
  else if a.shelved && decide (0 < a.silenced) then .shlvd
  else if status_off_delay && decide (a.ack = .ack) then .norm
  else if status_on_delay && decide (a.ack = .notAck) then .unack
  else if status_on_delay && decide (a.ack = .ack) then .acked
  else if status_off_delay && decide (a.ack = .notAck) then .rtnun
  else a.attr_value

/-- The timer has nothing to do without a delay and without a silence. -/
def timed (a : TableAlarm) : Bool :=
  decide (0 < a.on_delay) || decide (0 < a.off_delay) || a.shelved || decide (0 < a.silenced)

def timerOnDelay (a : TableAlarm) (ts : TimeVal) : Bool :=
  decide (0 < a.on_delay) && a.onDelayPassed ts

def timerOffDelay (a : TableAlarm) (ts : TimeVal) : Bool :=
  decide (0 < a.off_delay) && a.offDelayPassed ts

/-- The body of the loop of `alarm_table::timer_update`, for an alarm that it does not skip. The
alarm is also announced when its shelving ends. -/
def timerUpdate (grp2str : UInt32 → List Char) (startup_complete ts now : TimeVal)
    (old : TableAlarm) : Updated :=
  let a := old.countdownAck now
  let status_on_delay := a.timerOnDelay ts
  let status_off_delay := a.timerOffDelay ts
  let changed := a.statusChanges status_on_delay status_off_delay || old.shelved && !a.shelved
  let raised := changed && status_on_delay
  let cleared := changed && !status_on_delay && status_off_delay && decide (a.stat = .alarm)
  let text := actionText a.name (grp2str a.grp) a.msg a.attr_values_delay a.formula
  let acked := { a with ack := if raised then .notAck else a.ack }
  { ret_changed := changed || decide (0 < old.silenced) && decide (a.silenced = 0)
    list :=
      (if raised && a.dp_a && started startup_complete ts then [a.actionOn text] else [])
        ++ if cleared && a.dp_n && started startup_complete ts then [a.actionOff text] else []
    alarm := { acked with
      ts := if changed then ts else a.ts
      is_new := raised || a.is_new
      off_counter := if raised then 0 else a.off_counter
      on_counter := if changed && !status_on_delay && status_off_delay then 0 else a.on_counter
      attr_value :=
        if changed then acked.timerAttrState status_on_delay status_off_delay else a.attr_value
      stat := a.statusAfter status_on_delay status_off_delay } }

def FORCED_EVAL : List Char := "FORCED_EVAL".toList

/-- What the error of an evaluation leaves in the alarm. -/
def evalFailed (ev_name : List Char) (e : EvalError) (a : TableAlarm) : TableAlarm :=
  match e with
  | .out_of_range =>
      { a with
        ex_reason := "OUT_OF_RANGE".toList
        ex_desc := ev_name ++ ": ".toList ++ a.name ++ ": in formula array index out of range!".toList
        ex_origin := ev_name }
  | .err text =>
      { a with
        ex_reason := "FORMULA_ERROR".toList
        ex_desc := ev_name ++ ": ".toList ++ a.name ++ ": in formula err=".toList ++ text
        ex_origin := ev_name }

/-- What an evaluation returned, and the text of the values it had read. -/
abbrev Outcome (R : Type) := Except EvalError (FormulaRes R) × List Char

/-- Only evaluations for an event are counted for the frequency. -/
def evalStart (ev_name attr_values : List Char) (a : TableAlarm) : TableAlarm :=
  { a with
    freq_counter := if ev_name = FORCED_EVAL then a.freq_counter else a.freq_counter + 1
    attr_values := attr_values }

def evalUpdate (grp2str : UInt32 → List Char) (startup_complete now now' ts : TimeVal)
    (ev_name : List Char) (res : FormulaRes R) (attr_values : List Char) (a : TableAlarm) : Updated :=
  let attr_values := attr_values.dropLast ++ ['\x7d']
  update N startup_complete now now' ts res attr_values (grp2str a.grp) a.msg a.formula
    (a.evalStart ev_name attr_values)

/-- `do_alarm_eval` for an alarm of the table. -/
def doAlarmEval (grp2str : UInt32 → List Char) (startup_complete now now' ts : TimeVal)
    (ev_name : List Char) (outcome : Outcome R) (a : TableAlarm) : Updated :=
  if ev_name = FORCED_EVAL ∧ a.to_be_evaluated = false then ⟨false, a, []⟩
  else
    match outcome with
    | (.error e, attr_values) => ⟨true, evalFailed ev_name e (a.evalStart ev_name attr_values), []⟩
    | (.ok res, attr_values) =>
        let updated :=
          evalUpdate N grp2str startup_complete now now' ts ev_name res attr_values a
        { updated with
          alarm := { updated.alarm with
            attr_value := updated.alarm.attrState, to_be_evaluated := false } }

/-! ### Commands -/

/-- `ack`, for an alarm of the panel, whose copy has this acknowledgement. -/
def acknowledge (panel : AlarmAck) (a : TableAlarm) : TableAlarm :=
  if !a.enabled || a.shelved then a
  else
    let a := { a with ack := .ack }
    if panel = .notAck then { a with attr_value := a.attrState } else a

/-- `silence`. The countdown stays when the command is refused. -/
def silence (now now' : TimeVal) (a : TableAlarm) : TableAlarm :=
  let a := a.countdown now
  if 0 < a.silenced ∨ a.silent_time ≤ 0 then a
  else { a with ts_time_silenced := now', silenced := a.silent_time }

/-- What the checks of `shelve` do to an alarm, which come before any alarm is shelved. -/
def shelveCheck (now : TimeVal) (a : TableAlarm) : TableAlarm :=
  if a.enabled then a.countdown now else a

def shelve (now : TimeVal) (a : TableAlarm) : TableAlarm :=
  { a with
    shelved := true, ts_time_silenced := now, silenced := a.silent_time, attr_value := .shlvd }

/-- 0 where the alarm can be silenced, -1 where it cannot. -/
def unsilenced (silent_time : Int) : Int := if 0 < silent_time then 0 else -1

def enable (a : TableAlarm) : TableAlarm :=
  let a := { a with enabled := true, silenced := unsilenced a.silent_time, shelved := false }
  { a with attr_value := a.attrState }

def disable (a : TableAlarm) : TableAlarm :=
  { a with
    enabled := false, silenced := unsilenced a.silent_time, shelved := false, attr_value := .oosrv }

/-- Whether a proxy for an action could be made, and whether its command takes a string. -/
structure Connected where
  proxy : Bool
  string : Bool

/-- The proxies that `load` and `modify` make for the actions. -/
def connect (on_command off_command : Connected) (a : TableAlarm) : TableAlarm :=
  { a with
    dp_a := decide (a.cmd_name_a ≠ []) && on_command.proxy
    send_arg_a := a.send_arg_a || decide (a.cmd_name_a ≠ []) && on_command.string
    dp_n := decide (a.cmd_name_n ≠ []) && off_command.proxy
    send_arg_n := a.send_arg_n || decide (a.cmd_name_n ≠ []) && off_command.string }

/-- `modify` of an alarm with the formula it has. -/
def modify (alm : AlarmT) (on_command off_command : Connected) (a : TableAlarm) : TableAlarm :=
  connect on_command off_command { a with
    toAlarmT := { alm with name := a.name, formula := a.formula }
    stat := .normal
    ack := .ack
    done := false
    silenced := unsilenced alm.silent_time }

/-- Insertion into a `set<string>`. -/
def insertName (names : List (List Char)) (s : List Char) : List (List Char) :=
  if s ∈ names then names else names.orderedInsert (fun x y => ¬ y < x) s

/-- What `add_event` leaves in an alarm whose events are all in the event table. -/
def addEvent (evn : List (List Char)) (a : TableAlarm) : TableAlarm :=
  { a with
    to_be_evaluated := a.to_be_evaluated || !evn.isEmpty
    s_event := evn.foldl insertName a.s_event }

/-- `stop_new`, and `stop_audible`. -/
def stopNew (a : TableAlarm) : TableAlarm := { a with is_new := false }

def resetStatistics (a : TableAlarm) : TableAlarm := { a with freq_counter := 0 }

/-- What `load_alarm` sets and `add_alarm` stores, of an alarm that was read from a line. The times
and `is_new`, which it does not set, are what they were. -/
def load (alm : AlarmT) (formula_tree : FormulaTree) (ts unset : TimeVal) (is_new : Bool) :
    TableAlarm where
  toAlarmT := alm
  formula_tree := formula_tree
  attr_value := .norm
  quality := .invalid
  ex_reason := "NOT_SUBSCRIBED".toList
  ex_desc := "One or more events not subscribed".toList
  ex_origin := []
  ts := ts
  stat := .normal
  ack := .ack
  shelved := false
  on_counter := 0
  off_counter := 0
  freq_counter := 0
  done := false
  to_be_evaluated := false
  s_event := []
  is_new := is_new
  ts_on_delay := unset
  ts_off_delay := unset
  ts_time_silenced := unset
  silenced := unsilenced alm.silent_time
  attr_values := []
  attr_values_delay := []
  dp_a := false
  send_arg_a := false
  dp_n := false
  send_arg_n := false

inductive Op (R : Type) where
  | doAlarmEval (now now' ts : TimeVal) (ev_name : List Char) (outcome : Outcome R)
  | eventError (ex_reason ex_desc ex_origin : List Char)
  | timerUpdate (ts now : TimeVal)
  | ack (panel : AlarmAck)
  | silence (now now' : TimeVal)
  | shelveCheck (now : TimeVal)
  | shelve (now : TimeVal)
  | enable
  | disable
  | modify (alm : AlarmT) (on_command off_command : Connected)
  | addEvent (evn : List (List Char))
  | connect (on_command off_command : Connected)
  | stopNew
  | resetStatistics

/-- What the device knows of itself: its groups and when it had started. -/
structure Device where
  groups : GroupTable
  startup_complete : TimeVal

variable (d : Device)

/-- An operation, with the actions it sends. An alarm that is shelved has passed the checks. -/
def act (a : TableAlarm) : Op R → TableAlarm × List Cmd
  | .doAlarmEval now now' ts ev_name outcome =>
      let updated :=
        doAlarmEval N d.groups.grp2str d.startup_complete now now' ts ev_name outcome a
      (updated.alarm, updated.list)
  | .eventError ex_reason ex_desc ex_origin =>
      ({ a with ex_reason := ex_reason, ex_desc := ex_desc, ex_origin := ex_origin }, [])
  | .timerUpdate ts now =>
      if a.timed then
        let updated := timerUpdate d.groups.grp2str d.startup_complete ts now a
        (updated.alarm, updated.list)
      else (a, [])
  | .ack panel => (a.acknowledge panel, [])
  | .silence now now' => (a.silence now now', [])
  | .shelveCheck now => (a.shelveCheck now, [])
  | .shelve now => (if a.enabled && decide (0 < a.silent_time) then a.shelve now else a, [])
  | .enable => (a.enable, [])
  | .disable => (a.disable, [])
  | .modify alm on_command off_command => (a.modify alm on_command off_command, [])
  | .addEvent evn => (a.addEvent evn, [])
  | .connect on_command off_command => (a.connect on_command off_command, [])
  | .stopNew => (a.stopNew, [])
  | .resetStatistics => (a.resetStatistics, [])

def step (a : TableAlarm) (op : Op R) : TableAlarm := (a.act N d op).1

variable {N d} {a : TableAlarm}

theorem act_doAlarmEval_skipped {now now' ts : TimeVal} {outcome : Outcome R}
    (h : a.to_be_evaluated = false) :
    a.act N d (.doAlarmEval now now' ts FORCED_EVAL outcome) = (a, []) := by
  simp only [act, doAlarmEval, h, and_self, if_true]

theorem act_doAlarmEval_error {now now' ts : TimeVal} {ev_name attr_values : List Char} {e : EvalError}
    (h : ¬ (ev_name = FORCED_EVAL ∧ a.to_be_evaluated = false)) :
    a.act N d (.doAlarmEval now now' ts ev_name (.error e, attr_values))
      = (evalFailed ev_name e (a.evalStart ev_name attr_values), []) := by
  simp only [act, doAlarmEval, if_neg h]

theorem act_doAlarmEval_ok {now now' ts : TimeVal} {ev_name attr_values : List Char}
    {res : FormulaRes R} (h : ¬ (ev_name = FORCED_EVAL ∧ a.to_be_evaluated = false)) :
    a.act N d (.doAlarmEval now now' ts ev_name (.ok res, attr_values))
      = let updated := evalUpdate N d.groups.grp2str d.startup_complete now now' ts ev_name res
          attr_values a
        ({ updated.alarm with
          attr_value := updated.alarm.attrState, to_be_evaluated := false }, updated.list) := by
  simp only [act, doAlarmEval, if_neg h]

end TableAlarm

end DshLmc
