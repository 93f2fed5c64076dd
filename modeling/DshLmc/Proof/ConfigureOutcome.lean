import DshLmc.Core.ConfigureTask
import DshLmc.Library.Run

/-!
# The outcome of a configuration

A message that comes while its activity is disabled does nothing, so an outcome stays until an
activity starts again. When the action after the configuration throws, `periodic_job_i` writes
FAILED and goes on to write COMPLETED: it reports truly exactly while that action never throws.
-/

namespace DshLmc.ConfigureTask

variable (statuses : ConfigureStatus)

def Reads (t : ConfigureTask) (label : String) : Prop :=
  t.configureStatus = TangoUtils.getEnumAttrValue statuses.enum_labels label

instance (t : ConfigureTask) (label : String) : Decidable (t.Reads statuses label) :=
  inferInstanceAs (Decidable (_ = _))

def Message.findsOnBand (postConfigSucceeds : Bool) : Message :=
  .taskPeriodic (some "ON-BAND") postConfigSucceeds

/-- Nothing in the device posts the messages that start one activity alone. -/
def Message.starts : Message → Bool
  | .executeConfigure _ _ | .startPeriodic | .startTimeout => true
  | _ => false

/-- The message ends the configuration: its handler writes an outcome. -/
def Ends (t : ConfigureTask) (m : Message) : Prop :=
  ∃ label ∈ ["COMPLETED", "FAILED", "TIMED-OUT"], .setConfigureStatus label ∈ t.actions m

/-- What one message may report. -/
structure ReportsTruly (t : ConfigureTask) (m : Message) : Prop where
  completed : (step statuses t m).Reads statuses "COMPLETED" → ¬ t.Reads statuses "COMPLETED" →
    m.isDelivered t ∧ m = Message.findsOnBand true
  on : (step statuses t m).state = .ON → t.state ≠ .ON →
    m.isDelivered t ∧ m = Message.findsOnBand true
  failed : m.isDelivered t → m = Message.findsOnBand false →
    (step statuses t m).Reads statuses "FAILED" ∧
      ((step statuses t m).state = .ON → t.state = .ON)

def IsIdle (t : ConfigureTask) : Prop := t.periodicEnabled = false ∧ t.timeoutEnabled = false

/-- The outcome that a message leaves, until a message starts an activity. -/
def IsFinal (t : ConfigureTask) (later : List Message) : Prop :=
  t.IsIdle ∧
    ∀ soon, soon <+: later → (∀ m ∈ soon, m.starts = false) →
      (run (step statuses) t soon).configureStatus = t.configureStatus ∧
        (run (step statuses) t soon).state = t.state

/-- Every message of the run reports truly, and what ends a configuration is final. -/
def OutcomesTruthful (t : ConfigureTask) (messages : List Message) : Prop :=
  ∀ past m later, messages = past ++ m :: later →
    ReportsTruly statuses (run (step statuses) t past) m ∧
      (Ends (run (step statuses) t past) m →
        IsFinal statuses (run (step statuses) t (past ++ [m])) later)

def PostConfigSucceeds (t : ConfigureTask) (m : Message) : Prop :=
  m = Message.findsOnBand false → m.isDelivered t = false

instance (t : ConfigureTask) (m : Message) : Decidable (PostConfigSucceeds t m) :=
  inferInstanceAs (Decidable (_ → _))

theorem getEnumAttrValue_injective {enum_labels : List String} {first second : String}
    (hfirst : first ∈ enum_labels) (hsecond : second ∈ enum_labels) (hne : first ≠ second) :
    TangoUtils.getEnumAttrValue enum_labels first
      ≠ TangoUtils.getEnumAttrValue enum_labels second := by
  rw [TangoUtils.getEnumAttrValue, TangoUtils.getEnumAttrValue, if_pos hfirst, if_pos hsecond]
  intro heq
  exact hne ((List.idxOf_inj hfirst).mp (Int.ofNat_inj.mp heq))

variable {statuses}

theorem Reads.unique {t : ConfigureTask} (first : String) {second : String}
    (h : t.Reads statuses first) (hfirst : first ∈ ["RUNNING", "COMPLETED", "FAILED", "TIMED-OUT"])
    (hsecond : second ∈ ["RUNNING", "COMPLETED", "FAILED", "TIMED-OUT"]) (hne : first ≠ second) :
    ¬ t.Reads statuses second := by
  intro h'
  have hsubset := statuses.labels_subset
  exact getEnumAttrValue_injective (hsubset hfirst) (hsubset hsecond) hne (h.symm.trans h')

theorem actions_of_not_delivered {t : ConfigureTask} {m : Message} (h : m.isDelivered t = false) :
    t.actions m = [] := by
  simp [actions, h]

theorem step_of_not_delivered {t : ConfigureTask} {m : Message} (h : m.isDelivered t = false) :
    step statuses t m = t := by
  simp [step, actions_of_not_delivered h]

theorem step_eq {t : ConfigureTask} {m : Message} (h : m.isDelivered t) :
    step statuses t m = (t.processMessage m).foldl (act statuses) t := by
  simp [step, actions, h]

theorem not_completes_of_flag {t : ConfigureTask} {flag : Option String} {succeeds : Bool}
    (hflag : flag ≠ some "ON-BAND") :
    (((t.periodicJob flag succeeds).foldl (act statuses) t).Reads statuses "COMPLETED" →
        t.Reads statuses "COMPLETED") ∧
      (((t.periodicJob flag succeeds).foldl (act statuses) t).state = .ON → t.state = .ON) := by
  cases flag with
  | none => exact ⟨id, id⟩
  | some flag =>
      have honband : flag ≠ "ON-BAND" := fun h => hflag (by rw [h])
      rw [periodicJob]
      by_cases hrunning : flag = "RUNNING"
      · rw [if_pos hrunning]
        refine ⟨fun h => ?_, id⟩
        exact absurd h (Reads.unique "RUNNING" rfl (by simp) (by simp) (by decide))
      rw [if_neg hrunning]
      by_cases hidle : flag = "IDLE"
      · rw [if_pos hidle]
        exact ⟨id, id⟩
      rw [if_neg hidle, if_neg honband]
      by_cases hfailed : flag = "FAILED"
      · rw [if_pos hfailed]
        refine ⟨fun h => ?_, fun h => ?_⟩
        · exact absurd h (Reads.unique "FAILED" rfl (by simp) (by simp) (by decide))
        · cases h
      · rw [if_neg hfailed]
        exact ⟨id, id⟩

theorem reads_completed_of_findsOnBand {t : ConfigureTask} {succeeds : Bool} :
    (((t.periodicJob (some "ON-BAND") succeeds).foldl (act statuses) t)).Reads statuses
      "COMPLETED" := by
  cases succeeds <;> rfl

/-- Only the message that finds ON-BAND and whose action succeeds leaves a success. -/
theorem not_completes {t : ConfigureTask} {m : Message} (hsucceeds : PostConfigSucceeds t m)
    (hm : ¬ (m.isDelivered t ∧ m = Message.findsOnBand true)) :
    ((step statuses t m).Reads statuses "COMPLETED" → t.Reads statuses "COMPLETED") ∧
      ((step statuses t m).state = .ON → t.state = .ON) := by
  by_cases hdelivered : m.isDelivered t
  · rw [step_eq hdelivered]
    cases m with
    | taskPeriodic flag succeeds =>
        apply not_completes_of_flag
        rintro rfl
        cases succeeds with
        | true => exact hm ⟨hdelivered, rfl⟩
        | false => exact absurd hdelivered (by rw [hsucceeds rfl]; simp)
    | taskTimeout now date =>
        refine ⟨fun h => ?_, fun h => by cases h⟩
        exact absurd h (Reads.unique "TIMED-OUT" rfl (by simp) (by simp) (by decide))
    | startPeriodic => exact ⟨id, id⟩
    | stopPeriodic => exact ⟨id, id⟩
    | startTimeout => exact ⟨id, id⟩
    | stopTimeout => exact ⟨id, id⟩
    | executeConfigure bandId startTime => exact ⟨id, id⟩
  · rw [step_of_not_delivered (by simpa using hdelivered)]
    exact ⟨id, id⟩

theorem reportsTruly_iff {t : ConfigureTask} {m : Message} :
    ReportsTruly statuses t m ↔ PostConfigSucceeds t m := by
  constructor
  · rintro ⟨-, -, hfailed⟩ rfl
    by_contra hdelivered
    have hdelivered : (Message.findsOnBand false).isDelivered t = true := by simpa using hdelivered
    have hreads := (hfailed hdelivered rfl).1
    rw [step_eq hdelivered] at hreads
    exact Reads.unique _ reads_completed_of_findsOnBand (by simp) (by simp) (by decide) hreads
  · intro hsucceeds
    refine ⟨fun h hbefore => ?_, fun h hbefore => ?_, fun hdelivered hm => ?_⟩
    · by_contra hm
      exact hbefore ((not_completes hsucceeds hm).1 h)
    · by_contra hm
      exact hbefore ((not_completes hsucceeds hm).2 h)
    · rw [hsucceeds hm] at hdelivered
      cases hdelivered

theorem isIdle_of_ends {t : ConfigureTask} {m : Message} (h : t.Ends m) :
    (step statuses t m).IsIdle := by
  obtain ⟨label, hlabel, hmem⟩ := h
  have hdelivered : m.isDelivered t := by
    by_contra hdelivered
    rw [actions_of_not_delivered (by simpa using hdelivered)] at hmem
    cases hmem
  rw [actions, if_pos hdelivered] at hmem
  rw [step_eq hdelivered]
  cases m with
  | taskPeriodic flag succeeds =>
      rw [processMessage] at hmem ⊢
      cases flag with
      | none => cases hmem
      | some flag =>
          rw [periodicJob] at hmem ⊢
          by_cases hrunning : flag = "RUNNING"
          · rw [if_pos hrunning] at hmem
            obtain rfl : label = "RUNNING" := by simpa using hmem
            simp at hlabel
          rw [if_neg hrunning] at hmem ⊢
          by_cases hidle : flag = "IDLE"
          · rw [if_pos hidle] at hmem
            cases hmem
          rw [if_neg hidle] at hmem ⊢
          by_cases honband : flag = "ON-BAND"
          · rw [if_pos honband]
            cases succeeds <;> exact ⟨rfl, rfl⟩
          rw [if_neg honband] at hmem ⊢
          by_cases hfailed : flag = "FAILED"
          · rw [if_pos hfailed]
            exact ⟨rfl, rfl⟩
          · rw [if_neg hfailed] at hmem
            cases hmem
  | taskTimeout now date => exact ⟨rfl, rfl⟩
  | startPeriodic => simp [processMessage] at hmem
  | stopPeriodic => simp [processMessage] at hmem
  | startTimeout => simp [processMessage] at hmem
  | stopTimeout => simp [processMessage] at hmem
  | executeConfigure bandId startTime => simp [processMessage, executeConfigure] at hmem

variable (statuses) in
theorem step_of_isIdle {t : ConfigureTask} {m : Message} (hidle : t.IsIdle)
    (hm : m.starts = false) : (step statuses t m).IsIdle ∧
      (step statuses t m).configureStatus = t.configureStatus ∧
        (step statuses t m).state = t.state := by
  cases m with
  | taskPeriodic flag succeeds =>
      have hstep : step statuses t (.taskPeriodic flag succeeds) = t :=
        step_of_not_delivered hidle.1
      rw [hstep]
      exact ⟨hidle, rfl, rfl⟩
  | taskTimeout now date =>
      have hstep : step statuses t (.taskTimeout now date) = t := step_of_not_delivered hidle.2
      rw [hstep]
      exact ⟨hidle, rfl, rfl⟩
  | stopPeriodic => exact ⟨⟨rfl, hidle.2⟩, rfl, rfl⟩
  | stopTimeout => exact ⟨⟨hidle.1, rfl⟩, rfl, rfl⟩
  | startPeriodic => cases hm
  | startTimeout => cases hm
  | executeConfigure bandId startTime => cases hm

theorem isFinal_of_isIdle {t : ConfigureTask} (hidle : t.IsIdle) (later : List Message) :
    IsFinal statuses t later := by
  refine ⟨hidle, fun soon _ hsoon => ?_⟩
  have hstep : ∀ (now : ConfigureTask) m,
      (now.IsIdle ∧ now.configureStatus = t.configureStatus ∧ now.state = t.state) →
        m.starts = false → (step statuses now m).IsIdle
          ∧ (step statuses now m).configureStatus = t.configureStatus
          ∧ (step statuses now m).state = t.state := by
    rintro now m ⟨hnow, hstatus, hstate⟩ hm
    obtain ⟨hidle', hstatus', hstate'⟩ := step_of_isIdle statuses hnow hm
    exact ⟨hidle', hstatus'.trans hstatus, hstate'.trans hstate⟩
  exact (run_invariant hstep ⟨hidle, rfl, rfl⟩ (along_of_forall_mem hsoon)).2

/-- **The outcome of a configuration is truthful and final** in exactly the runs in which the action
after the configuration succeeds whenever a message finds ON-BAND. -/
theorem outcomesTruthful_iff_postConfigSucceeds (statuses : ConfigureStatus) (t : ConfigureTask)
    (messages : List Message) :
    OutcomesTruthful statuses t messages
      ↔ Along (step statuses) PostConfigSucceeds t messages := by
  rw [along_iff_forall_step]
  constructor
  · intro h past m later hmessages
    exact reportsTruly_iff.mp (h past m later hmessages).1
  · intro h past m later hmessages
    refine ⟨reportsTruly_iff.mpr (h past m later hmessages), fun hends => ?_⟩
    rw [run_append]
    exact isFinal_of_isIdle (isIdle_of_ends hends) later

/-- The band is configured, and the action after it fails. -/
theorem not_outcomesTruthful_failedAction :
    ¬ OutcomesTruthful
      ⟨["IDLE", "RUNNING", "COMPLETED", "FAILED", "TIMED-OUT"], by simp⟩
      (create ⟨-1, -1, false, false, 0, 0, "", 0, .STANDBY, ""⟩)
      [.executeConfigure 1 100, .taskPeriodic (some "ON-BAND") false] := by
  intro h
  have hreads := ((h [.executeConfigure 1 100] (.taskPeriodic (some "ON-BAND") false) [] rfl).1.failed
    rfl rfl).1
  exact absurd hreads (by decide)

end DshLmc.ConfigureTask
