import DshLmc.Proof.StowProgress

/-!
# A stow against the motion in progress

`stow` disables tracking to end the motion in progress and enables it again for its own pointing.
The tracking thread looks at the flag when a wait of `Slew` ends. If the flag is back by then, the
thread goes on with the pointing that it had.
-/

namespace DshLmc

/-- `Slew` has a pointing that it has not reached, as far as it knows. -/
def TrackingPoint.slewing : TrackingPoint → Bool
  | .run _ => false
  | .setTrackCoords _ _ => false
  | .slew _ .enabledCheck => true
  | .slew _ .started => true
  | .slew _ .getAz => true
  | .slew _ (.getEl _) => true
  | .slew _ (.setPointState w) => !w.reached
  | .slew _ (.setTargetLock w) => !w.reached
  | .slew _ (.loop w) => !w.reached
  | .slew _ (.setAz w) => !w.reached
  | .slew _ (.setEl w) => !w.reached
  | .slew _ (.wait w) => !w.reached
  | .slew _ (.stopCheck w) => !w.reached

/-- The wait of an iteration has ended, and `Slew` looks at the flags. -/
def TrackingPoint.afterWait : TrackingPoint → Bool
  | .slew _ (.stopCheck _) => true
  | _ => false

namespace TrackingThread

def beginsIteration (s : TrackingThread) : TrackingInput → Bool
  | .thread _ =>
      match s.pc with
      | .slew _ (.loop w) => !w.reached
      | _ => false
  | _ => false

def endsWait (s : TrackingThread) : TrackingInput → Bool
  | .thread e =>
      match s.pc with
      | .slew _ (.wait _) => s.stopThread || !s.trackingEnabled || e.timedOut
      | _ => false
  | _ => false

/-- In the run, whenever `stow` starts and a wait has ended since, no iteration begins for the
pointing that had been popped last. -/
def StowStopsSlewing (props : TrackingProperties) (s : TrackingThread)
    (inputs : List TrackingInput) : Prop :=
  ∀ past before wakeUp after i,
    past ++ [.stow] ++ before ++ [wakeUp] ++ after ++ [i] <+: inputs →
    (run (step props) s past).stow = .outside →
    (run (step props) s (past ++ [.stow] ++ before)).endsWait wakeUp = true →
    (run (step props) s (past ++ [.stow] ++ before ++ [wakeUp] ++ after)).pops
      = (run (step props) s past).pops →
    (run (step props) s (past ++ [.stow] ++ before ++ [wakeUp] ++ after)).beginsIteration i = false

def enables (s : TrackingThread) : TrackingInput → Bool
  | .stow => s.stow == .pushed
  | .enableTracking => true
  | _ => false

/-- `Slew` still has a pointing that was popped before the last `stow` started, and nothing else
stops it. -/
def outdated (s : TrackingThread) : Bool :=
  s.stowPops == some s.pops && s.pc.slewing && !s.stopThread

/-- The condition on a step: tracking is not enabled while `Slew` has an outdated pointing. -/
def WaitsForSlew (s : TrackingThread) (i : TrackingInput) : Prop :=
  s.enables i = true → s.outdated = false

instance (s : TrackingThread) (i : TrackingInput) : Decidable (s.WaitsForSlew i) :=
  inferInstanceAs (Decidable (s.enables i = true → s.outdated = false))

/-! ### What a step of the thread does to the motion -/

/-- The motion at the next point is that of `s`. It goes on after a wait when tracking is enabled
and the thread is not stopped. -/
def Follows (s : TrackingThread) (pc : TrackingPoint) : Prop :=
  pc.slewing = true → s.pc.slewing = true
    ∧ (s.pc.afterWait = true → s.stopThread = false ∧ s.trackingEnabled = true)

/-- A step that does not pop. -/
structure Continues (s s' : TrackingThread) : Prop where
  pops : s'.pops = s.pops
  stowPops : s'.stowPops = s.stowPops
  stopThread : s'.stopThread = s.stopThread
  enabled : s'.trackingEnabled = true → s.trackingEnabled = true
  follows : s.Follows s'.pc

variable {s : TrackingThread} {props : TrackingProperties} {e : Turn} {pdata : PointingData}

theorem follows_run {pt : RunPoint} : s.Follows (.run pt) :=
  fun h => absurd h (by simp [TrackingPoint.slewing])

theorem follows_setTrackCoords {pt : TrackPoint} :
    s.Follows (.setTrackCoords pdata pt) :=
  fun h => absurd h (by simp [TrackingPoint.slewing])

theorem continues_self (h : s.Follows s.pc) : s.Continues s := ⟨rfl, rfl, rfl, id, h⟩

theorem continues_moveTo {pc : TrackingPoint} (h : s.Follows pc) : s.Continues (s.moveTo pc) :=
  ⟨rfl, rfl, rfl, id, h⟩

theorem continues_achieved (position : Rat × Rat × Rat) (h : s.Follows s.pc) :
    s.Continues { s with achievedPointing := position } :=
  ⟨rfl, rfl, rfl, id, h⟩

theorem Continues.setStatusIfStow {s' : TrackingThread} (h : s.Continues s')
    (pdata : PointingData) (status : ProgressStatus) :
    s.Continues (s'.setStatusIfStow pdata status) := by
  rw [TrackingThread.setStatusIfStow]
  split
  · exact ⟨h.pops, h.stowPops, h.stopThread, h.enabled, h.follows⟩
  · exact h

theorem Continues.setAttr {s' : TrackingThread} (h : s.Continues s') {w : AttrWrite}
    {next : TrackingPoint} {onFailure : TrackingThread → TrackingThread} (hnext : s.Follows next)
    (hfailure : s.Continues (onFailure s'.failed)) :
    s.Continues (s'.setAttr e w next onFailure) := by
  rw [TrackingThread.setAttr]
  split
  · exact ⟨h.pops, h.stowPops, h.stopThread, h.enabled, hnext⟩
  · exact hfailure

theorem Continues.failed {s' : TrackingThread} (h : s.Continues s') : s.Continues s'.failed :=
  ⟨h.pops, h.stowPops, h.stopThread, h.enabled, follows_run⟩

theorem continues_runStep {pt : RunPoint} (hpc : s.pc = .run pt) :
    s.Continues (s.runStep e pt) ∨ (s.runStep e pt).pops = s.pops + 1
      ∧ (s.runStep e pt).stowPops = s.stowPops := by
  have hstay : s.Continues s := continues_self (hpc ▸ follows_run)
  have hmove : ∀ pt', s.Continues (s.moveTo (.run pt')) :=
    fun pt' => continues_moveTo follows_run
  cases pt with
  | loop => exact .inl (hmove _)
  | stopCheck => exact .inl (hmove _)
  | enabledCheck => exact .inl (hmove _)
  | popEnabledCheck => exact .inl (hmove _)
  | ended => exact .inl hstay
  | wait =>
      rw [runStep]
      split
      · exact .inl (hmove _)
      · exact .inl hstay
  | popWait =>
      rw [runStep]
      split
      · exact .inl (hmove _)
      · exact .inl hstay
  | pop =>
      rw [runStep]
      split
      · exact .inr ⟨rfl, rfl⟩
      · exact .inl ⟨rfl, rfl, rfl, id, follows_run⟩

theorem continues_slewStep {pt : SlewPoint} (hpc : s.pc = .slew pdata pt) :
    s.Continues (slewStep props s e pdata pt) := by
  -- Away from the check of the flags only the motion matters.
  have hnext : ∀ pc, s.pc.afterWait = false → (pc.slewing = true → s.pc.slewing = true) →
      s.Follows pc := by
    intro pc hwait hslewing hpcslewing
    refine ⟨hslewing hpcslewing, ?_⟩
    rw [hwait]
    exact fun h => absurd h (by decide)
  have hself : s.pc.afterWait = false → s.Continues s := fun hwait =>
    continues_self (hnext s.pc hwait id)
  have hfailed : ∀ s', s.Continues s' → s.Continues (s'.failed.setStatusIfStow pdata .FAILED) :=
    fun s' h => h.failed.setStatusIfStow pdata .FAILED
  rw [hpc] at hnext hself
  cases pt with
  | enabledCheck =>
      rw [slewStep]
      refine continues_moveTo (hnext _ rfl fun _ => rfl)
  | started =>
      have hstarted := (hself rfl).setStatusIfStow pdata .RUNNING
      exact ⟨hstarted.pops, hstarted.stowPops, hstarted.stopThread, hstarted.enabled,
        hnext _ rfl fun _ => rfl⟩
  | getAz =>
      rw [slewStep]
      split
      · exact continues_moveTo (hnext _ rfl fun _ => rfl)
      · exact hfailed s (hself rfl)
  | getEl startAz =>
      rw [slewStep]
      split
      · exact continues_moveTo (hnext _ rfl fun _ => rfl)
      · exact hfailed s (hself rfl)
  | setPointState w => exact (hself rfl).setAttr (hnext _ rfl id) (hfailed s (hself rfl))
  | setTargetLock w => exact (hself rfl).setAttr (hnext _ rfl id) (hfailed s (hself rfl))
  | loop w =>
      rw [slewStep]
      refine continues_moveTo (hnext _ rfl fun hslewing => ?_)
      split at hslewing
      · simp [TrackingPoint.slewing] at hslewing
      case isFalse hreached => simpa [TrackingPoint.slewing] using hreached
  | setAz w => exact (hself rfl).setAttr (hnext _ rfl id) (hfailed s (hself rfl))
  | setEl w =>
      have hachieved := continues_achieved (if e.callSucceeds then (doubleUnixMSec e.now, w.currentAz, w.currentEl)
        else s.achievedPointing) (hself rfl).follows
      exact hachieved.setAttr (hnext _ rfl id) (hfailed _ hachieved)
  | wait w =>
      rw [slewStep]
      split
      · exact continues_moveTo (hnext _ rfl id)
      · exact hself rfl
  | stopCheck w =>
      rw [slewStep]
      split
      · exact (continues_moveTo follows_run).setStatusIfStow pdata .CANCELED
      case isFalse hflags =>
        refine continues_moveTo fun hslewing => ?_
        rw [hpc]
        refine ⟨hslewing, fun _ => ?_⟩
        simpa using hflags

theorem continues_setTrackCoordsStep {pt : TrackPoint} (hpc : s.pc = .setTrackCoords pdata pt) :
    s.Continues (setTrackCoordsStep props s e pdata pt) := by
  have hself : s.Continues s := continues_self (hpc ▸ follows_setTrackCoords)
  have hafter : s.Follows (afterReady pdata) := by
    rw [afterReady]
    split
    · exact follows_setTrackCoords
    · exact follows_run
  cases pt with
  | smear =>
      rw [setTrackCoordsStep]
      split
      · exact continues_moveTo follows_setTrackCoords
      · split
        · exact continues_moveTo follows_setTrackCoords
        · exact continues_moveTo follows_setTrackCoords
  | setPointState => exact hself.setAttr follows_setTrackCoords hself.failed
  | setTargetLock => exact hself.setAttr follows_setTrackCoords hself.failed
  | setAz => exact hself.setAttr follows_setTrackCoords hself.failed
  | setEl =>
      have hachieved := continues_achieved (if e.callSucceeds then (doubleUnixMSec e.now, pdata.az, pdata.el)
        else s.achievedPointing) hself.follows
      exact hachieved.setAttr follows_setTrackCoords hachieved.failed
  | queueCheck =>
      rw [setTrackCoordsStep]
      refine continues_moveTo ?_
      split
      · exact follows_setTrackCoords
      · exact hafter
  | setReady => exact hself.setAttr hafter hself.failed
  | disableTracking =>
      refine ⟨rfl, rfl, rfl, fun henabled => ?_, follows_setTrackCoords⟩
      simp [setTrackCoordsStep, moveTo] at henabled
  | stow calls =>
      cases calls with
      | nil => exact ⟨rfl, rfl, rfl, id, follows_run⟩
      | cons c rest =>
          rw [setTrackCoordsStep]
          split
          · exact ⟨rfl, rfl, rfl, id, follows_setTrackCoords⟩
          · exact ⟨rfl, rfl, rfl, id, follows_run⟩

theorem continues_threadStep (props : TrackingProperties) (s : TrackingThread) (e : Turn) :
    s.Continues (s.threadStep props e) ∨ (s.threadStep props e).pops = s.pops + 1
      ∧ (s.threadStep props e).stowPops = s.stowPops := by
  rw [threadStep]
  split
  case h_1 hpc => exact continues_runStep hpc
  case h_2 hpc => exact .inl (continues_slewStep hpc)
  case h_3 hpc => exact .inl (continues_setTrackCoordsStep hpc)

/-- A step of another thread leaves the motion alone. Either `stow` starts in it, or tracking is
enabled afterwards only if it was before or the step enables it. -/
structure Beside (s : TrackingThread) (i : TrackingInput) (s' : TrackingThread) : Prop where
  pc : s'.pc = s.pc
  pops : s'.pops = s.pops
  stopThread : s'.stopThread = false → s.stopThread = false
  flag : s'.stowPops = some s.pops ∧ s'.trackingEnabled = false
    ∨ s'.stowPops = s.stowPops
      ∧ (s'.trackingEnabled = true → s.trackingEnabled = true ∨ s.enables i = true)

theorem beside_step (props : TrackingProperties) (s : TrackingThread) {i : TrackingInput}
    (hi : ∀ e, i ≠ .thread e) :
    s.Beside i (s.step props i) := by
  cases i with
  | thread e => exact absurd rfl (hi e)
  | stow =>
      rw [step, stowStep]
      split
      · exact ⟨rfl, rfl, id, .inl ⟨rfl, rfl⟩⟩
      · exact ⟨rfl, rfl, id, .inr ⟨rfl, .inl⟩⟩
      · rw [PointingSchedule.push_stow _ rfl]
        exact ⟨rfl, rfl, id, .inr ⟨rfl, .inl⟩⟩
      case h_4 hstow => exact ⟨rfl, rfl, id, .inr ⟨rfl, fun _ => .inr (by simp [enables, hstow])⟩⟩
  | enableTracking => exact ⟨rfl, rfl, id, .inr ⟨rfl, fun _ => .inr rfl⟩⟩
  | disableTracking => exact ⟨rfl, rfl, id, .inr ⟨rfl, fun h => by simp [step, disableTracking] at h⟩⟩
  | stop => exact ⟨rfl, rfl, fun h => absurd h (by simp [step]), .inr ⟨rfl, .inl⟩⟩
  | flushQueue => exact ⟨rfl, rfl, id, .inr ⟨rfl, .inl⟩⟩
  | push data => exact ⟨rfl, rfl, id, .inr ⟨rfl, .inl⟩⟩
  | pushAll data => exact ⟨rfl, rfl, id, .inr ⟨rfl, .inl⟩⟩
  | setAttrs attrs => exact ⟨rfl, rfl, id, .inr ⟨rfl, .inl⟩⟩

theorem outdated_iff : s.outdated = true
    ↔ s.stowPops = some s.pops ∧ s.pc.slewing = true ∧ s.stopThread = false := by
  simp [outdated, and_assoc]

/-- **The invariant.** Tracking is disabled while `Slew` has an outdated pointing. -/
structure Halting (s : TrackingThread) : Prop where
  stowPops_le : ∀ n, s.stowPops = some n → n ≤ s.pops
  disabled : s.outdated = true → s.trackingEnabled = false

theorem Halting.step (h : s.Halting) {i : TrackingInput} (hwaits : s.WaitsForSlew i) :
    (s.step props i).Halting := by
  by_cases hi : ∃ e, i = .thread e
  · obtain ⟨e, rfl⟩ := hi
    obtain hgoes | ⟨hpops, hstowPops⟩ := continues_threadStep props s e
    · refine ⟨fun n hn => ?_, fun houtdated => ?_⟩
      · have hbound := h.stowPops_le n (hgoes.stowPops ▸ hn)
        exact hbound.trans_eq hgoes.pops.symm
      · obtain ⟨hstow, hslewing, hstop⟩ := outdated_iff.mp houtdated
        have hbefore : s.outdated = true := by
          refine outdated_iff.mpr ⟨?_, (hgoes.follows hslewing).1, hgoes.stopThread ▸ hstop⟩
          exact (hgoes.stowPops.symm.trans hstow).trans (congrArg some hgoes.pops)
        have hdisabled := h.disabled hbefore
        by_contra henabled
        have := hgoes.enabled (Bool.eq_true_of_not_eq_false henabled)
        simp [hdisabled] at this
    · -- The pointing is newer than the last `stow`.
      refine ⟨fun n hn => ?_, fun houtdated => ?_⟩
      · have hbound := h.stowPops_le n (hstowPops ▸ hn)
        exact (Nat.le_succ_of_le hbound).trans_eq hpops.symm
      · obtain ⟨hstow, _⟩ := outdated_iff.mp houtdated
        have hbound := h.stowPops_le _ (hstowPops ▸ hstow)
        change (s.threadStep props e).pops ≤ s.pops at hbound
        omega
  · have hbeside := beside_step props s (not_exists.mp hi)
    obtain ⟨hstow, hdisabled⟩ | ⟨hstow, henabled⟩ := hbeside.flag
    · refine ⟨fun n hn => ?_, fun _ => hdisabled⟩
      obtain rfl := Option.some.inj (hstow.symm.trans hn)
      exact hbeside.pops.ge
    · refine ⟨fun n hn => ?_, fun houtdated => ?_⟩
      · have hbound := h.stowPops_le n (hstow ▸ hn)
        exact hbound.trans_eq hbeside.pops.symm
      · have hbefore : s.outdated = true := by
          rw [outdated_iff, hstow, hbeside.pops, hbeside.pc] at houtdated
          exact outdated_iff.mpr ⟨houtdated.1, houtdated.2.1, hbeside.stopThread houtdated.2.2⟩
        by_contra hflag
        obtain hbefore' | henables := henabled (Bool.eq_true_of_not_eq_false hflag)
        · simp [h.disabled hbefore] at hbefore'
        · simp [hwaits henables] at hbefore

theorem pops_le_step (props : TrackingProperties) (s : TrackingThread) (i : TrackingInput) :
    s.pops ≤ (s.step props i).pops := by
  by_cases hi : ∃ e, i = .thread e
  · obtain ⟨e, rfl⟩ := hi
    obtain hgoes | ⟨hpops, _⟩ := continues_threadStep props s e
    · exact hgoes.pops.ge
    · exact (Nat.le_succ s.pops).trans_eq hpops.symm
  · exact (beside_step props s (not_exists.mp hi)).pops.ge

/-- `stow` started after `n` pops. -/
structure Since (n : Nat) (s : TrackingThread) : Prop extends Halting s where
  le_pops : n ≤ s.pops
  stowPops : s.pops = n → s.stowPops = some n

/-- The motion after `n` pops has come to the end of a wait. -/
structure Leaving (n : Nat) (s : TrackingThread) : Prop extends Since n s where
  afterWait : s.pops = n → s.pc.slewing = true → s.pc.afterWait = true

variable {n : Nat} {i : TrackingInput}

theorem Since.step (h : Since n s) (hwaits : s.WaitsForSlew i) : Since n (s.step props i) := by
  have hpops := pops_le_step props s i
  refine ⟨h.toHalting.step hwaits, h.le_pops.trans hpops, fun hn => ?_⟩
  have hbefore : s.pops = n := le_antisymm (hpops.trans_eq hn) h.le_pops
  have hstow := h.stowPops hbefore
  by_cases hi : ∃ e, i = .thread e
  · obtain ⟨e, rfl⟩ := hi
    obtain hgoes | ⟨hpop, _⟩ := continues_threadStep props s e
    · exact hgoes.stowPops.trans hstow
    · change (s.threadStep props e).pops = n at hn
      omega
  · have hbeside := beside_step props s (not_exists.mp hi)
    obtain ⟨hstarts, _⟩ | ⟨hkeeps, _⟩ := hbeside.flag
    · rw [hstarts, hbefore]
    · exact hkeeps.trans hstow

theorem Leaving.step (h : Leaving n s) (hwaits : s.WaitsForSlew i) :
    Leaving n (s.step props i) := by
  have hsince : Since n (s.step props i) := h.toSince.step hwaits
  refine ⟨hsince, fun hn hslewing => ?_⟩
  have hpops := pops_le_step props s i
  have hbefore : s.pops = n := le_antisymm (hpops.trans_eq hn) h.le_pops
  by_cases hi : ∃ e, i = .thread e
  · obtain ⟨e, rfl⟩ := hi
    obtain hgoes | ⟨hpop, _⟩ := continues_threadStep props s e
    · obtain ⟨hslewing', hflags⟩ := hgoes.follows hslewing
      obtain ⟨hstop, henabled⟩ := hflags (h.afterWait hbefore hslewing')
      have houtdated : s.outdated = true :=
        outdated_iff.mpr ⟨hbefore ▸ h.stowPops hbefore, hslewing', hstop⟩
      have hdisabled := h.disabled houtdated
      rw [henabled] at hdisabled
      contradiction
    · change (s.threadStep props e).pops = n at hn
      omega
  · have hbeside := beside_step props s (not_exists.mp hi)
    rw [hbeside.pc] at hslewing ⊢
    exact h.afterWait hbefore hslewing

theorem Halting.since (h : s.Halting) (hstow : s.stow = .outside) :
    Since s.pops (s.step props .stow) := by
  refine ⟨h.step fun henables => ?_, pops_le_step props s .stow, fun _ => ?_⟩
  · simp [enables, hstow] at henables
  · rw [TrackingThread.step, stowStep, hstow]

theorem Since.leaving (h : Since n s) (hwaits : s.WaitsForSlew i) (hends : s.endsWait i = true) :
    Leaving n (s.step props i) := by
  refine ⟨h.step hwaits, fun _ _ => ?_⟩
  cases i with
  | thread e =>
      rw [endsWait] at hends
      split at hends
      case h_2 => contradiction
      case h_1 pdata w hpc =>
        rw [TrackingThread.step, threadStep, hpc]
        dsimp only [slewStep]
        rw [if_pos hends]
        rfl
  | _ => contradiction

theorem Leaving.not_begins (h : Leaving n s) (hn : s.pops = n) : s.beginsIteration i = false := by
  by_contra hbegins
  have hslewing : s.pc.slewing = true ∧ s.pc.afterWait = false := by
    cases i with
    | thread e =>
        dsimp only [beginsIteration] at hbegins
        split at hbegins
        case h_1 hpc => simpa [hpc, TrackingPoint.slewing, TrackingPoint.afterWait] using hbegins
        case h_2 => contradiction
    | _ => contradiction
  have hafter := h.afterWait hn hslewing.1
  rw [hslewing.2] at hafter
  contradiction

/-- **A stow stops the motion in progress** in every run in which tracking is not enabled while
`Slew` has a pointing that was popped before the stow. -/
theorem stowStopsSlewing_of_waitsForSlew (props : TrackingProperties) (schedule : PointingSchedule)
    (attrs : DishAttrs) (stowProgress : ProgressStatus) (inputs : List TrackingInput)
    (hwaits : Along (step props) WaitsForSlew (initial schedule attrs stowProgress) inputs) :
    StowStopsSlewing props (initial schedule attrs stowProgress) inputs := by
  intro past before wakeUp after i hpre hstow hends hpops
  obtain ⟨rest, rfl⟩ := hpre
  have hinitial : (initial schedule attrs stowProgress).Halting := by
    refine ⟨fun n hn => ?_, fun houtdated => ?_⟩
    · cases hn
    · cases (outdated_iff.mp houtdated).1
  have hrule : ∀ (s : TrackingThread) (i : TrackingInput), s.Halting → s.WaitsForSlew i →
      (s.step props i).Halting := fun _ _ h hi => h.step hi
  simp only [along_append, run_append] at hwaits hends hpops ⊢
  obtain ⟨⟨⟨⟨⟨⟨hpast, _⟩, hbefore⟩, hwake⟩, hafter⟩, _⟩, _⟩ := hwaits
  -- Up to the stow, in the stow, and from the end of the wait.
  have hhalting := run_invariant hrule hinitial hpast
  have hsince := run_invariant (fun _ _ h hi => h.step hi) (hhalting.since hstow) hbefore
  have hleaving : Leaving _ (step props _ wakeUp) := hsince.leaving hwake.1 hends
  exact (run_invariant (fun _ _ h hi => h.step hi) hleaving hafter).not_begins hpops

/-- The thread slews to a track point, and waits at the end of an iteration. -/
def slewingToTrack : List TrackingInput :=
  [.push (.new 10 45 0 .eTRACK_PROGRAM), .enableTracking] ++ List.replicate 15 (.thread {})

/-- The thread leaves `Slew` before `stow` enables tracking. -/
theorem stowStopsSlewing_threadFirst :
    StowStopsSlewing stowProps (initial {} zenithAttrs .INIT)
      (slewingToTrack ++ [.stow, .stow, .stow, .thread {}, .thread {}, .stow, .thread {}]) :=
  stowStopsSlewing_of_waitsForSlew stowProps {} zenithAttrs .INIT _ (by decide +kernel)

/-- All of `stow` happens in a wait, and the thread goes on to the track point. -/
theorem not_stowStopsSlewing_inWait :
    ¬ StowStopsSlewing stowProps (initial {} zenithAttrs .INIT)
      (slewingToTrack ++ [.stow, .stow, .stow, .stow, .thread { timedOut := true }, .thread {},
        .thread {}]) := by
  intro hstops
  have hnot := hstops slewingToTrack [.stow, .stow, .stow] (.thread { timedOut := true })
    [.thread {}] (.thread {}) List.prefix_rfl (by decide +kernel) (by decide +kernel)
    (by decide +kernel)
  exact absurd hnot (by decide +kernel)

end TrackingThread

end DshLmc
