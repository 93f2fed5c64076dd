import DshLmc.Library.Run
import DshLmc.Utils.TangoProxyHelper

/-!
# The run status over histories of reports

`GetProxyRunStatus` computes the run status from a flag and a timeout that `SetTimeout`,
`SetOnline_i` and `SetOffline_i` make, replace, enable, disable and restart. After every history of
their calls it is the status that the reports of the history, their times and the timeouts that
were accepted give.
-/

namespace DshLmc

namespace TangoProxyHelper

inductive Report where
  | online
  | offline
deriving DecidableEq

inductive StatusCall where
  | setTimeout (timeout : Int)
  | setOnline (state : UInt32) (status : String) (ping_time : Int)
  | setOffline

structure TimedCall where
  now : Rat
  call : StatusCall

def StatusCall.report : StatusCall → Option Report
  | .setTimeout _ => none
  | .setOnline .. => some .online
  | .setOffline => some .offline

/-- A call on the helper. A timeout that is refused leaves it alone. -/
def statusCall (helper : TangoProxyHelper) (c : TimedCall) : TangoProxyHelper :=
  match c.call with
  | .setTimeout timeout => (helper.setTimeout timeout c.now).getD helper
  | .setOnline state status ping_time => helper.setOnline_i state status ping_time c.now
  | .setOffline => helper.setOffline_i c.now

def lastReport (history : List TimedCall) : Option Report :=
  (history.filterMap (·.call.report)).getLast?

/-- The timeout that a call sets, if it is accepted. -/
def accepts (helper : TangoProxyHelper) (c : TimedCall) : Option Int :=
  match c.call with
  | .setTimeout timeout => (helper.setTimeout timeout c.now).map fun _ => timeout
  | _ => none

def accepted (helper : TangoProxyHelper) : List TimedCall → List Int
  | [] => []
  | c :: rest => (helper.accepts c).toList ++ accepted (helper.statusCall c) rest

def timeoutInForce (helper : TangoProxyHelper) (history : List TimedCall) : Int :=
  (helper.accepted history).getLast?.getD helper.m_action_timeout

/-- The first offline report after the last online one, and the action timeout in force at it. -/
def OfflineSince (helper : TangoProxyHelper) (history : List TimedCall) (start : Rat)
    (timeout : Int) : Prop :=
  ∃ before after, history = before ++ ⟨start, .setOffline⟩ :: after
    ∧ lastReport before ≠ some .offline
    ∧ (∀ c ∈ after, c.call.report ≠ some .online)
    ∧ helper.timeoutInForce before = timeout

theorem lastReport_append_singleton (past : List TimedCall) (c : TimedCall) :
    lastReport (past ++ [c]) = c.call.report.or (lastReport past) := by
  rw [lastReport, lastReport, List.filterMap_append]
  cases h : c.call.report <;> simp [h]

theorem lastReport_eq_none_iff {history : List TimedCall} :
    lastReport history = none ↔ ∀ c ∈ history, c.call.report = none := by
  simp [lastReport]

theorem accepted_append_singleton (helper : TangoProxyHelper) (past : List TimedCall)
    (c : TimedCall) :
    helper.accepted (past ++ [c])
      = helper.accepted past ++ ((run statusCall helper past).accepts c).toList := by
  induction past generalizing helper with
  | nil => simp [accepted]
  | cons first rest ih => simp [accepted, ih]

theorem offlineSince_append_singleton_iff (helper : TangoProxyHelper) (past : List TimedCall)
    (c : TimedCall) (start : Rat) (timeout : Int) :
    helper.OfflineSince (past ++ [c]) start timeout
      ↔ (c.call.report ≠ some .online ∧ helper.OfflineSince past start timeout)
        ∨ (c = ⟨start, .setOffline⟩ ∧ lastReport past ≠ some .offline
          ∧ helper.timeoutInForce past = timeout) := by
  constructor
  · rintro ⟨before, after, heq, hbefore, hafter, htimeout⟩
    obtain rfl | ⟨after, last, rfl⟩ := List.eq_nil_or_concat after
    · obtain ⟨rfl, hc⟩ := List.append_inj' heq rfl
      exact Or.inr ⟨List.singleton_inj.mp hc, hbefore, htimeout⟩
    · rw [List.concat_eq_append, ← List.cons_append, ← List.append_assoc] at heq
      obtain ⟨rfl, hc⟩ := List.append_inj' heq rfl
      obtain rfl : c = last := List.singleton_inj.mp hc
      refine Or.inl ⟨hafter c (by simp), before, after, rfl, hbefore, ?_, htimeout⟩
      exact fun c' hc' => hafter c' (by simp [hc'])
  · rintro (⟨hc, before, after, rfl, hbefore, hafter, htimeout⟩ | ⟨rfl, hlast, htimeout⟩)
    · refine ⟨before, after ++ [c], by simp, hbefore, ?_, htimeout⟩
      intro c' hc'
      obtain hmem | hmem := List.mem_append.mp hc'
      · exact hafter c' hmem
      · rwa [List.mem_singleton.mp hmem]
    · exact ⟨past, [], rfl, hlast, by simp, htimeout⟩

/-- The flag is the last report, and the timeout is in the state that the history gives it. -/
structure Keeps (proxy_name : String) (past : List TimedCall) (helper : TangoProxyHelper) :
    Prop where
  online : helper.m_is_online = true ↔ lastReport past = some .online
  timeout : (∃ start, helper.m_downtimeActionTimeout
        = some ⟨(new proxy_name).timeoutInForce past, lastReport past = some .offline, start⟩)
      ∨ (helper.m_downtimeActionTimeout = none ∧ lastReport past ≠ some .offline
        ∧ (new proxy_name).accepted past = [] ∧ helper.m_action_timeout = 10)
  offline : ∀ start timeout, (new proxy_name).OfflineSince past start timeout
      ↔ lastReport past = some .offline
        ∧ helper.m_downtimeActionTimeout = some ⟨timeout, true, start⟩

variable {proxy_name : String} {past : List TimedCall}

theorem keeps_nil : Keeps proxy_name [] (new proxy_name) where
  online := by simp [new, lastReport]
  timeout := Or.inr ⟨rfl, by simp [lastReport], rfl, rfl⟩
  offline := by simp [OfflineSince, lastReport]

theorem setTimeout_eq_some {helper helper' : TangoProxyHelper} {timeout : Int} {now : Rat}
    (h : helper.setTimeout timeout now = some helper') :
    ¬ (helper.m_is_online = false ∧ helper.m_downtimeActionTimeout.any (·.enabled))
      ∧ helper' = { helper with
          m_downtimeActionTimeout := some ⟨timeout, false, now⟩
          m_action_timeout := timeout } := by
  rw [setTimeout] at h
  split at h
  · contradiction
  · split at h
    · contradiction
    case isFalse hrunning =>
      refine ⟨?_, (Option.some.inj h).symm⟩
      simpa using hrunning

section Step

variable {helper : TangoProxyHelper}

theorem timeoutInForce_of_accepts (hhelper : run statusCall (new proxy_name) past = helper)
    {c : TimedCall} {timeout : Int} (h : helper.accepts c = some timeout) :
    (new proxy_name).timeoutInForce (past ++ [c]) = timeout := by
  rw [timeoutInForce, accepted_append_singleton, hhelper, h]
  simp

theorem accepted_of_accepts_eq_none (hhelper : run statusCall (new proxy_name) past = helper)
    {c : TimedCall} (h : helper.accepts c = none) :
    (new proxy_name).accepted (past ++ [c]) = (new proxy_name).accepted past := by
  rw [accepted_append_singleton, hhelper, h]
  simp

theorem timeoutInForce_of_accepts_eq_none
    (hhelper : run statusCall (new proxy_name) past = helper) {c : TimedCall}
    (h : helper.accepts c = none) :
    (new proxy_name).timeoutInForce (past ++ [c]) = (new proxy_name).timeoutInForce past := by
  rw [timeoutInForce, accepted_of_accepts_eq_none hhelper h, timeoutInForce]

theorem Keeps.setTimeout (hhelper : run statusCall (new proxy_name) past = helper)
    (h : Keeps proxy_name past helper) (now : Rat) (timeout : Int) :
    Keeps proxy_name (past ++ [⟨now, .setTimeout timeout⟩])
      (helper.statusCall ⟨now, .setTimeout timeout⟩) := by
  have hreport : lastReport (past ++ [⟨now, .setTimeout timeout⟩]) = lastReport past := by
    simp [lastReport_append_singleton, StatusCall.report]
  have hoffline : ∀ start timeout', (new proxy_name).OfflineSince
      (past ++ [⟨now, .setTimeout timeout⟩]) start timeout'
        ↔ (new proxy_name).OfflineSince past start timeout' := by
    intro start timeout'
    rw [offlineSince_append_singleton_iff]
    simp [StatusCall.report]
  cases hset : helper.setTimeout timeout now with
  | none =>
      have haccepts : helper.accepts ⟨now, .setTimeout timeout⟩ = none := by simp [accepts, hset]
      have hstate : helper.statusCall ⟨now, .setTimeout timeout⟩ = helper := by
        simp [statusCall, hset]
      rw [hstate]
      constructor
      · rw [hreport]
        exact h.online
      · rw [hreport, timeoutInForce_of_accepts_eq_none hhelper haccepts,
          accepted_of_accepts_eq_none hhelper haccepts]
        exact h.timeout
      · intro start timeout'
        rw [hoffline, hreport]
        exact h.offline start timeout'
  | some helper' =>
      have haccepts : helper.accepts ⟨now, .setTimeout timeout⟩ = some timeout := by
        simp [accepts, hset]
      have hstate : helper.statusCall ⟨now, .setTimeout timeout⟩ = helper' := by
        simp [statusCall, hset]
      obtain ⟨hrunning, rfl⟩ := setTimeout_eq_some hset
      have hidle : lastReport past ≠ some .offline := by
        intro hlast
        apply hrunning
        constructor
        · simpa [hlast] using h.online
        · obtain ⟨start, htimeout⟩ := h.timeout.resolve_right fun hnone => hnone.2.1 hlast
          simp [htimeout, hlast, ActionTimeout.enabled]
      rw [hstate]
      constructor
      · rw [hreport]
        exact h.online
      · refine Or.inl ⟨now, ?_⟩
        rw [timeoutInForce_of_accepts hhelper haccepts, hreport]
        simp [hidle]
      · intro start timeout'
        rw [hoffline, h.offline, hreport]
        simp [hidle]

theorem Keeps.setOnline (hhelper : run statusCall (new proxy_name) past = helper)
    (h : Keeps proxy_name past helper) (now : Rat) (state : UInt32) (status : String)
    (ping_time : Int) :
    Keeps proxy_name (past ++ [⟨now, .setOnline state status ping_time⟩])
      (helper.statusCall ⟨now, .setOnline state status ping_time⟩) := by
  have hreport : lastReport (past ++ [⟨now, .setOnline state status ping_time⟩])
      = some .online := by
    simp [lastReport_append_singleton, StatusCall.report]
  have haccepts : helper.accepts ⟨now, .setOnline state status ping_time⟩ = none := rfl
  constructor
  · exact iff_of_true rfl hreport
  · rw [timeoutInForce_of_accepts_eq_none hhelper haccepts,
      accepted_of_accepts_eq_none hhelper haccepts, hreport]
    refine h.timeout.imp ?_ ?_
    · rintro ⟨start, htimeout⟩
      exact ⟨start, by simp [statusCall, setOnline_i, htimeout, ActionTimeout.disable]⟩
    · rintro ⟨htimeout, _, haccepted, hdefault⟩
      exact ⟨by simp [statusCall, setOnline_i, htimeout], by simp, haccepted, hdefault⟩
  · intro start timeout
    rw [offlineSince_append_singleton_iff, hreport]
    simp [StatusCall.report]

/-- The first offline report starts the deadline, and those that follow it leave it alone. -/
theorem Keeps.setOffline (hhelper : run statusCall (new proxy_name) past = helper)
    (h : Keeps proxy_name past helper) (now : Rat) :
    Keeps proxy_name (past ++ [⟨now, .setOffline⟩]) (helper.statusCall ⟨now, .setOffline⟩) := by
  have hreport : lastReport (past ++ [⟨now, .setOffline⟩]) = some .offline := by
    simp [lastReport_append_singleton, StatusCall.report]
  have haccepts : helper.accepts ⟨now, .setOffline⟩ = none := rfl
  have hforce := timeoutInForce_of_accepts_eq_none hhelper haccepts
  by_cases hlast : lastReport past = some .offline
  · obtain ⟨start, htimeout⟩ := h.timeout.resolve_right fun hnone => hnone.2.1 hlast
    have honline : helper.m_is_online = false := by simpa [hlast] using h.online
    have hkept : (helper.statusCall ⟨now, .setOffline⟩).m_downtimeActionTimeout
        = helper.m_downtimeActionTimeout := by
      simp [statusCall, setOffline_i, htimeout, hlast, honline, ActionTimeout.enabled]
    constructor
    · simp [hreport, statusCall, setOffline_i]
    · refine Or.inl ⟨start, ?_⟩
      rw [hkept, htimeout, hforce, hreport, hlast]
    · intro start' timeout
      rw [offlineSince_append_singleton_iff, h.offline, hreport, hkept]
      simp [hlast, StatusCall.report]
  · have hstarted : (helper.statusCall ⟨now, .setOffline⟩).m_downtimeActionTimeout
        = some ⟨(new proxy_name).timeoutInForce past, true, now⟩ := by
      obtain ⟨start, htimeout⟩ | ⟨htimeout, _, haccepted, hdefault⟩ := h.timeout
      · simp [statusCall, setOffline_i, htimeout, hlast, ActionTimeout.enabled,
          ActionTimeout.enable, ActionTimeout.restart]
      · have hten : (new proxy_name).timeoutInForce past = 10 := by
          rw [timeoutInForce, haccepted]
          rfl
        simp [statusCall, setOffline_i, htimeout, hdefault, hten]
    constructor
    · simp [hreport, statusCall, setOffline_i]
    · refine Or.inl ⟨now, ?_⟩
      rw [hstarted, hforce, hreport]
      simp
    · intro start timeout
      rw [offlineSince_append_singleton_iff, h.offline, hreport, hstarted]
      simp [hlast, eq_comm, and_comm]

end Step

theorem keeps_run (proxy_name : String) (history : List TimedCall) :
    Keeps proxy_name history (run statusCall (new proxy_name) history) := by
  refine run_history keeps_nil ?_
  intro past c _ h
  obtain ⟨now, call⟩ := c
  cases call with
  | setTimeout timeout => exact Keeps.setTimeout rfl h now timeout
  | setOnline state status ping_time => exact Keeps.setOnline rfl h now state status ping_time
  | setOffline => exact Keeps.setOffline rfl h now

/-- **The run status is that of the history.** Once there was a report or a timeout was accepted,
the status is online when the last report was, hard offline when the last report was offline and
the action timeout that was in force at the first offline report has passed since, and soft offline
otherwise. -/
theorem getProxyRunStatus_run (proxy_name : String) (history : List TimedCall) (now : Rat)
    (hcalled : (∃ c ∈ history, c.call.report ≠ none) ∨ (new proxy_name).accepted history ≠ []) :
    ∃ status, (run statusCall (new proxy_name) history).getProxyRunStatus now = some status
      ∧ (status = .ePROXY_ONLINE ↔ lastReport history = some .online)
      ∧ (status = .ePROXY_HARD_OFFLINE ↔ lastReport history = some .offline
        ∧ ∃ start timeout, (new proxy_name).OfflineSince history start timeout
          ∧ timeout ≤ now - start)
      ∧ (status = .ePROXY_SOFT_OFFLINE ↔ lastReport history ≠ some .online
        ∧ ¬ (lastReport history = some .offline
          ∧ ∃ start timeout, (new proxy_name).OfflineSince history start timeout
            ∧ timeout ≤ now - start)) := by
  have h := keeps_run proxy_name history
  generalize run statusCall (new proxy_name) history = helper at h ⊢
  by_cases honline : helper.m_is_online
  · refine ⟨.ePROXY_ONLINE, if_pos honline, ?_⟩
    simp [h.online.mp honline]
  have hlast : lastReport history ≠ some .online := fun hlast => honline (h.online.mpr hlast)
  obtain ⟨start, htimeout⟩ | ⟨_, hoffline, haccepted, _⟩ := h.timeout
  · have hstatus : helper.getProxyRunStatus now = some
        (if lastReport history = some .offline
            ∧ (new proxy_name).timeoutInForce history ≤ now - start then .ePROXY_HARD_OFFLINE
          else .ePROXY_SOFT_OFFLINE) := by
      rw [getProxyRunStatus, if_neg honline, htimeout]
      by_cases hoffline : lastReport history = some .offline <;>
        simp [hoffline, ActionTimeout.enabled, ActionTimeout.expired, apply_ite some]
    have hsince : (lastReport history = some .offline ∧ ∃ start timeout,
        (new proxy_name).OfflineSince history start timeout ∧ timeout ≤ now - start)
          ↔ lastReport history = some .offline
            ∧ (new proxy_name).timeoutInForce history ≤ now - start := by
      refine and_congr_right fun hoffline => ?_
      simp [h.offline, htimeout, hoffline]
    refine ⟨_, hstatus, ?_⟩
    rw [hsince]
    split
    case isTrue hexpired => simp [hexpired]
    case isFalse hexpired => simp [hlast, hexpired]
  · have hnone : lastReport history = none := by
      cases hreport : lastReport history with
      | none => rfl
      | some report =>
          cases report with
          | online => exact absurd hreport hlast
          | offline => exact absurd hreport hoffline
    obtain ⟨c, hc, hreport⟩ | hne := hcalled
    · exact absurd (lastReport_eq_none_iff.mp hnone c hc) hreport
    · exact absurd haccepted hne

/-- A proxy goes offline, is reported again, and has its timeout changed in between. -/
def offlineAgain : List TimedCall :=
  [⟨0, .setTimeout 20⟩, ⟨1, .setOffline⟩, ⟨2, .setOnline 1 "ON" 5⟩, ⟨3, .setOffline⟩,
    ⟨7, .setTimeout 5⟩, ⟨8, .setOffline⟩]

theorem getProxyRunStatus_run_offlineAgain :
    ∃ status, (run statusCall (new "mid/spfc/0") offlineAgain).getProxyRunStatus 13 = some status
      ∧ (status = .ePROXY_ONLINE ↔ lastReport offlineAgain = some .online)
      ∧ (status = .ePROXY_HARD_OFFLINE ↔ lastReport offlineAgain = some .offline
        ∧ ∃ start timeout, (new "mid/spfc/0").OfflineSince offlineAgain start timeout
          ∧ timeout ≤ 13 - start)
      ∧ (status = .ePROXY_SOFT_OFFLINE ↔ lastReport offlineAgain ≠ some .online
        ∧ ¬ (lastReport offlineAgain = some .offline
          ∧ ∃ start timeout, (new "mid/spfc/0").OfflineSince offlineAgain start timeout
            ∧ timeout ≤ 13 - start)) :=
  getProxyRunStatus_run "mid/spfc/0" offlineAgain 13
    (Or.inl ⟨⟨8, .setOffline⟩, by simp [offlineAgain], by decide⟩)

end TangoProxyHelper

end DshLmc
