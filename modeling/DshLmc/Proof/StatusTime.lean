import DshLmc.Proof.RunStatus
import DshLmc.Utils.ProxyInfo

/-!
# How long a proxy is in its run status

One timer serves both directions. A report that the proxy went offline restarts it, and one that the
proxy came back does not.
-/

namespace DshLmc

namespace TangoProxyHelper

/-- A report and the changes after it, the last one first. A report changes the status when it is the
first one or not what the last one was. -/
def change (changes : List (Report × Rat)) (c : TimedCall) : List (Report × Rat) :=
  match c.call.report with
  | none => changes
  | some report =>
      match changes with
      | [] => [(report, c.now)]
      | last :: before => if last.1 = report then last :: before else (report, c.now) :: last :: before

def statusChanges (history : List TimedCall) : List (Report × Rat) := history.foldl change []

/-- When the status last changed, or was first reported. -/
def statusSince (history : List TimedCall) : Option Rat := (statusChanges history).head?.map (·.2)

@[simp]
theorem statusChanges_append_singleton (past : List TimedCall) (c : TimedCall) :
    statusChanges (past ++ [c]) = change (statusChanges past) c := by
  rw [statusChanges, List.foldl_append]
  rfl

/-- The status that the last change was to, and for a return of the proxy the change before it. -/
theorem changes_cases (changes : List (Report × Rat)) :
    changes = [] ∨ (∃ since rest, changes = (.offline, since) :: rest)
      ∨ (∃ since, changes = [(.online, since)])
      ∨ ∃ since before rest, changes = (.online, since) :: before :: rest := by
  cases changes with
  | nil => exact .inl rfl
  | cons last rest =>
      obtain ⟨report, since⟩ := last
      cases report with
      | offline => exact .inr (.inl ⟨since, rest, rfl⟩)
      | online =>
          cases rest with
          | nil => exact .inr (.inr (.inl ⟨since, rfl⟩))
          | cons before rest => exact .inr (.inr (.inr ⟨since, before, rest, rfl⟩))

/-- What the timer shows: the change before the last one, once the proxy came back. -/
def timerStart : List (Report × Rat) → Option Rat
  | [] => none
  | (.offline, since) :: _ => some since
  | [(.online, since)] => some since
  | (.online, _) :: before :: _ => some before.2

/-- The flag is the last change, and the timer was started at it or at the one before. -/
structure KeepsTime (changes : List (Report × Rat)) (helper : TangoProxyHelper) : Prop where
  online : helper.m_is_online = true ↔ changes.head?.map (·.1) = some .online
  timer : helper.m_timer = timerStart changes

variable {helper : TangoProxyHelper} {changes : List (Report × Rat)}

theorem KeepsTime.setTimeout (h : KeepsTime changes helper) (now : Rat) (timeout : Int) :
    KeepsTime (change changes ⟨now, .setTimeout timeout⟩)
      (helper.statusCall ⟨now, .setTimeout timeout⟩) := by
  have hchange : change changes ⟨now, .setTimeout timeout⟩ = changes := rfl
  rw [hchange]
  cases hset : helper.setTimeout timeout now with
  | none =>
      have hsame : helper.statusCall ⟨now, .setTimeout timeout⟩ = helper := by
        simp [statusCall, hset]
      rwa [hsame]
  | some helper' =>
      obtain ⟨-, rfl⟩ := setTimeout_eq_some hset
      have hnew : helper.statusCall ⟨now, .setTimeout timeout⟩ = { helper with
          m_downtimeActionTimeout := some ⟨timeout, false, now⟩
          m_action_timeout := timeout } := by
        simp [statusCall, hset]
      rw [hnew]
      exact ⟨h.online, h.timer⟩

theorem KeepsTime.setOnline (h : KeepsTime changes helper) (now : Rat) (state : UInt32)
    (status : String) (ping_time : Int) :
    KeepsTime (change changes ⟨now, .setOnline state status ping_time⟩)
      (helper.statusCall ⟨now, .setOnline state status ping_time⟩) := by
  have htimer : (helper.statusCall ⟨now, .setOnline state status ping_time⟩).m_timer
      = some ((timerStart changes).getD now) := by
    rw [← h.timer]
    rfl
  obtain rfl | ⟨since, rest, rfl⟩ | ⟨since, rfl⟩ | ⟨since, before, rest, rfl⟩ := changes_cases changes
  · exact ⟨iff_of_true rfl rfl, htimer⟩
  · exact ⟨iff_of_true rfl rfl, htimer⟩
  · exact ⟨iff_of_true rfl rfl, htimer⟩
  · exact ⟨iff_of_true rfl rfl, htimer⟩

theorem head_change_setOffline (changes : List (Report × Rat)) (now : Rat) :
    (change changes ⟨now, .setOffline⟩).head?.map (·.1) = some .offline := by
  obtain rfl | ⟨since, rest, rfl⟩ | ⟨since, rfl⟩ | ⟨since, before, rest, rfl⟩ := changes_cases changes
    <;> rfl

theorem KeepsTime.setOffline (h : KeepsTime changes helper) (now : Rat) :
    KeepsTime (change changes ⟨now, .setOffline⟩) (helper.statusCall ⟨now, .setOffline⟩) := by
  have hstatus : (helper.statusCall ⟨now, .setOffline⟩).m_is_online = true
      ↔ (change changes ⟨now, .setOffline⟩).head?.map (·.1) = some .online := by
    rw [head_change_setOffline]
    simp [statusCall, setOffline_i]
  have htimer : (helper.statusCall ⟨now, .setOffline⟩).m_timer
      = (timerStart changes).elim (some now) fun start =>
        if helper.m_is_online then some now else some start := by
    rw [← h.timer]
    cases htime : helper.m_timer <;> simp [statusCall, setOffline_i, htime]
  refine ⟨hstatus, htimer.trans ?_⟩
  obtain rfl | ⟨since, rest, rfl⟩ | ⟨since, rfl⟩ | ⟨since, before, rest, rfl⟩ := changes_cases changes
  · rfl
  · have hoffline : ¬ helper.m_is_online = true := by
      rw [h.online]
      simp
    exact if_neg hoffline
  · have honline : helper.m_is_online = true := h.online.mpr rfl
    exact if_pos honline
  · have honline : helper.m_is_online = true := h.online.mpr rfl
    exact if_pos honline

theorem keepsTime_run (proxy_name : String) (history : List TimedCall) :
    KeepsTime (statusChanges history) (run statusCall (new proxy_name) history) := by
  have hstart : KeepsTime (statusChanges []) (new proxy_name) :=
    ⟨iff_of_false (by simp [new]) (by simp [statusChanges]), rfl⟩
  refine run_history (I := fun past helper => KeepsTime (statusChanges past) helper) hstart ?_
  intro past c _ h
  rw [statusChanges_append_singleton]
  obtain ⟨now, call⟩ := c
  cases call with
  | setTimeout timeout => exact h.setTimeout now timeout
  | setOnline state status ping_time => exact h.setOnline now state status ping_time
  | setOffline => exact h.setOffline now

/-- Both reports give the time since the status last changed. -/
def ReportsTime (helper : TangoProxyHelper) (history : List TimedCall) (now : Rat) : Prop :=
  ∀ since, statusSince history = some since → helper.getTimeElapsed now = now - since
    ∧ ∀ timestamp_local timestamp_utc time_to_expiration,
      (helper.getProxyInfoInJson timestamp_local timestamp_utc time_to_expiration now).get?
        "timeElapsedInRunStatus" = some (.real (now - since))

theorem reportsTime_iff_timer {history : List TimedCall} {now : Rat} :
    ReportsTime helper history now
      ↔ ∀ since, statusSince history = some since → helper.getTimeElapsed now = now - since := by
  constructor
  · intro h since hsince
    exact (h since hsince).1
  · intro h since hsince
    refine ⟨h since hsince, ?_⟩
    intro timestamp_local timestamp_utc time_to_expiration
    rw [timeElapsedInRunStatus_eq, h since hsince]

/-- **The time is right unless the proxy came back.** After a history of reports both times are those
since the last change, except when that change was a return of the proxy at another instant than
that of the change before. -/
theorem reportsTime_iff (proxy_name : String) (history : List TimedCall) (now : Rat) :
    ReportsTime (run statusCall (new proxy_name) history) history now
      ↔ ∀ since before rest, statusChanges history = (.online, since) :: before :: rest →
        before.2 = since := by
  rw [reportsTime_iff_timer, statusSince]
  have htimer := (keepsTime_run proxy_name history).timer
  generalize run statusCall (new proxy_name) history = helper at htimer ⊢
  have helapsed : helper.getTimeElapsed now
      = (timerStart (statusChanges history)).elim 0 fun start => now - start := by
    rw [← htimer, getTimeElapsed]
    cases helper.m_timer <;> simp
  rw [helapsed]
  generalize statusChanges history = changes
  obtain rfl | ⟨since, rest, rfl⟩ | ⟨since, rfl⟩ | ⟨since, before, rest, rfl⟩ := changes_cases changes
  · exact iff_of_true (fun since h => by cases h) fun since before rest h => by cases h
  · refine iff_of_true ?_ fun since before rest h => by cases h
    intro since' hsince
    obtain rfl : since = since' := Option.some.inj hsince
    rfl
  · refine iff_of_true ?_ fun since before rest h => by cases h
    intro since' hsince
    obtain rfl : since = since' := Option.some.inj hsince
    rfl
  · constructor
    · intro h since' before' rest' hchanges
      cases hchanges
      have heq : now - before.2 = now - since := h since rfl
      exact sub_right_inj.mp heq
    · intro h since' hsince
      obtain rfl : since = since' := Option.some.inj hsince
      have hbefore := h since before rest rfl
      change now - before.2 = now - since
      rw [hbefore]

theorem not_reportsTime_sample :
    ¬ ReportsTime (run statusCall (new "a/b/c")
        [⟨0, .setOnline 0 "" 1⟩, ⟨10, .setOffline⟩, ⟨20, .setOnline 0 "" 1⟩])
      [⟨0, .setOnline 0 "" 1⟩, ⟨10, .setOffline⟩, ⟨20, .setOnline 0 "" 1⟩] 25 := by
  intro h
  have helapsed := (h 20 rfl).1
  have hfifteen : getTimeElapsed (run statusCall (new "a/b/c")
      [⟨0, .setOnline 0 "" 1⟩, ⟨10, .setOffline⟩, ⟨20, .setOnline 0 "" 1⟩]) 25 = 25 - 10 := rfl
  rw [hfifteen] at helapsed
  exact absurd (sub_right_inj.mp helapsed) (by decide)

end TangoProxyHelper

end DshLmc
