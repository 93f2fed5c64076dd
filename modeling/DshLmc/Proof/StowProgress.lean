import DshLmc.Emulators.TrackingThread
import DshLmc.Library.Run

/-!
# What a stow reports

The loop of `Run` takes a stow from the schedule, and an iteration of it has many exits. An exit
reports how the stow ended, unless tracking was disabled before `Slew` looked, or one of the calls
failed that set the coordinates of any pointing.
-/

namespace DshLmc

namespace TrackingThread

/-- The part of the state that a report is about. -/
structure Report where
  status : ProgressStatus
  written : Nat
  pops : Nat
  popped : Option PointingData
  callFailed : Bool

def report (s : TrackingThread) : Report where
  status := s.stowProgress
  written := s.stowWritten
  pops := s.pops
  popped := s.popped
  callFailed := s.callFailed

namespace Report

/-- A terminal status was written after the last pop, `COMPLETED` only if no call has failed. -/
structure Settled (r : Report) : Prop where
  terminal : r.status.isTerminal = true
  written : r.written = r.pops
  completed : r.status = .COMPLETED → r.callFailed = false

structure Running (r : Report) : Prop where
  status : r.status = .RUNNING
  written : r.written = r.pops
  callFailed : r.callFailed = false

structure Fresh (r : Report) : Prop where
  written : r.written < r.pops
  callFailed : r.callFailed = false

/-- The last pointing that was popped has the type of the one at hand. -/
def IsOf (r : Report) (pdata : PointingData) : Prop :=
  r.popped.map PointingData.pntType = some pdata.pntType

/-- What holds at a point of the thread. -/
def At (r : Report) : TrackingPoint → Prop
  | .run _ => r.popped.map PointingData.pntType = some .eSTOW → r.Settled
  | .slew pdata .enabledCheck => r.IsOf pdata ∧ r.Fresh
  | .slew pdata .started => r.IsOf pdata ∧ r.Fresh
  | .slew pdata _ => r.IsOf pdata ∧ (pdata.pntType = .eSTOW → r.Running)
  | .setTrackCoords pdata .setPointState => r.IsOf pdata ∧ pdata.pntType ≠ .eSTOW
  | .setTrackCoords pdata .setTargetLock => r.IsOf pdata ∧ pdata.pntType ≠ .eSTOW
  | .setTrackCoords pdata _ => r.IsOf pdata ∧ (pdata.pntType = .eSTOW → r.Running)

end Report

/-- Once the iteration that popped a stow has ended, the stow is settled. -/
def StowSettled (s : TrackingThread) : Prop :=
  s.pc.inRun = true → ∀ pdata, s.popped = some pdata → pdata.pntType = .eSTOW → s.report.Settled

/-- The condition on a step: with a stow at hand, tracking is enabled when `Slew` looks, and the
calls that `SetTrackCoords` makes for any pointing succeed. -/
def ReportsStow (s : TrackingThread) : TrackingInput → Prop
  | .thread e =>
      match s.pc with
      | .slew pdata .enabledCheck => pdata.pntType = .eSTOW → s.trackingEnabled = true
      | .setTrackCoords pdata .setAz => pdata.pntType = .eSTOW → e.callSucceeds = true
      | .setTrackCoords pdata .setEl => pdata.pntType = .eSTOW → e.callSucceeds = true
      | .setTrackCoords pdata .setReady => pdata.pntType = .eSTOW → e.callSucceeds = true
      | _ => True
  | _ => True

structure Reporting (s : TrackingThread) : Prop where
  written_le : s.report.written ≤ s.report.pops
  point : s.report.At s.pc

theorem Reporting.settled {s : TrackingThread} (h : s.Reporting) : s.StowSettled := by
  intro hrun pdata hpopped htype
  have hpoint := h.point
  cases hpc : s.pc with
  | run pt =>
      rw [hpc] at hpoint
      apply hpoint
      simp [report, hpopped, htype]
  | slew _ _ => simp [hpc, TrackingPoint.inRun] at hrun
  | setTrackCoords _ _ => simp [hpc, TrackingPoint.inRun] at hrun

theorem Reporting.of_report {s s' : TrackingThread} (h : s.Reporting)
    (hreport : s'.report = s.report) (hpoint : s.report.At s'.pc) : s'.Reporting where
  written_le := hreport ▸ h.written_le
  point := hreport ▸ hpoint

variable {s : TrackingThread} {pdata : PointingData}

theorem Report.IsOf.not_stow (h : s.report.IsOf pdata) (htype : pdata.pntType ≠ .eSTOW) :
    s.report.popped.map PointingData.pntType ≠ some .eSTOW := by
  rw [h]
  simpa using htype

theorem Reporting.of_exit {status : ProgressStatus} (hpc : s.pc = .run .loop)
    (hwritten : s.report.written ≤ s.report.pops) (hof : s.report.IsOf pdata)
    (hterminal : status.isTerminal = true) (hcompleted : status ≠ .COMPLETED) :
    (s.setStatusIfStow pdata status).Reporting := by
  rw [setStatusIfStow]
  split
  · refine ⟨le_rfl, ?_⟩
    rw [setStowStatus, hpc]
    exact fun _ => ⟨hterminal, rfl, fun h => absurd h hcompleted⟩
  case isFalse htype =>
    refine ⟨hwritten, ?_⟩
    rw [hpc]
    exact fun hstow => absurd hstow (hof.not_stow htype)

theorem Reporting.of_silent (hpc : s.pc = .run .loop) (hwritten : s.report.written ≤ s.report.pops)
    (hof : s.report.IsOf pdata) (htype : pdata.pntType ≠ .eSTOW) : s.Reporting := by
  refine ⟨hwritten, ?_⟩
  rw [hpc]
  exact fun hstow => absurd hstow (hof.not_stow htype)

theorem Reporting.failed (h : s.Reporting) (hof : s.report.IsOf pdata) :
    (s.failed.setStatusIfStow pdata .FAILED).Reporting :=
  .of_exit rfl h.written_le hof rfl (by simp)

theorem Reporting.setAttr (h : s.Reporting) {e : Turn} {w : AttrWrite} {next : TrackingPoint}
    (hof : s.report.IsOf pdata) (hnext : s.report.At next) :
    (s.setAttr e w next fun s => s.setStatusIfStow pdata .FAILED).Reporting := by
  rw [TrackingThread.setAttr]
  split
  · exact h.of_report rfl hnext
  · exact h.failed hof

theorem Reporting.setAttr_silent (h : s.Reporting) {e : Turn} {w : AttrWrite} {next : TrackingPoint}
    (hof : s.report.IsOf pdata) (hcall : pdata.pntType = .eSTOW → e.callSucceeds = true)
    (hnext : s.report.At next) : (s.setAttr e w next id).Reporting := by
  rw [TrackingThread.setAttr]
  split
  · exact h.of_report rfl hnext
  case isFalse hfailed =>
    exact .of_silent rfl h.written_le hof fun hstow => hfailed (hcall hstow)

/-! ### One step of the thread -/

variable {props : TrackingProperties} {e : Turn}

theorem Reporting.runStep (h : s.Reporting) {pt : RunPoint} (hpc : s.pc = .run pt) :
    (s.runStep e pt).Reporting := by
  have hrun := h.point
  rw [hpc] at hrun
  have hmove : ∀ pt', (s.moveTo (.run pt')).Reporting := fun _ => h.of_report rfl hrun
  cases pt with
  | loop => exact hmove _
  | stopCheck => exact hmove _
  | enabledCheck => exact hmove _
  | popEnabledCheck => exact hmove _
  | ended => exact h
  | wait =>
      rw [TrackingThread.runStep]
      split
      · exact hmove _
      · exact h
  | popWait =>
      rw [TrackingThread.runStep]
      split
      · exact hmove _
      · exact h
  | pop =>
      rw [TrackingThread.runStep]
      split
      · -- What was written so far was written before this pop.
        refine ⟨Nat.le_succ_of_le h.written_le, rfl, ?_, rfl⟩
        exact Nat.lt_succ_of_le h.written_le
      · exact h.of_report rfl hrun

theorem Report.isOf_slew {r : Report} {pt : SlewPoint} (h : r.At (.slew pdata pt)) :
    r.IsOf pdata := by
  cases pt <;> exact h.1

theorem Reporting.started (h : s.Reporting) (hof : s.report.IsOf pdata) (hfresh : s.report.Fresh) :
    ((s.setStatusIfStow pdata .RUNNING).moveTo (.slew pdata .getAz)).Reporting := by
  rw [setStatusIfStow]
  split
  · exact ⟨le_rfl, hof, fun _ => ⟨rfl, rfl, hfresh.callFailed⟩⟩
  case isFalse htype =>
    exact ⟨h.written_le, hof, fun hstow => absurd hstow htype⟩

theorem Reporting.achieved (h : s.Reporting) (position : Rat × Rat × Rat) :
    { s with achievedPointing := position }.Reporting :=
  h.of_report rfl h.point

theorem Reporting.slewStep (h : s.Reporting) {pt : SlewPoint} (hpc : s.pc = .slew pdata pt)
    (hreports : s.ReportsStow (.thread e)) : (slewStep props s e pdata pt).Reporting := by
  have hpoint := h.point
  rw [hpc] at hpoint
  rw [ReportsStow, hpc] at hreports
  have hof : s.report.IsOf pdata := Report.isOf_slew hpoint
  cases pt with
  | enabledCheck =>
      rw [TrackingThread.slewStep]
      split
      · exact h.of_report rfl hpoint
      case isFalse hdisabled =>
        refine .of_silent rfl h.written_le hof fun htype => hdisabled ?_
        exact hreports htype
  | started => exact h.started hof hpoint.2
  | getAz =>
      rw [TrackingThread.slewStep]
      split
      · exact h.of_report rfl hpoint
      · exact h.failed hof
  | getEl startAz =>
      rw [TrackingThread.slewStep]
      split
      · refine h.of_report rfl ?_
        dsimp only [moveTo]
        split <;> exact hpoint
      · exact h.failed hof
  | setPointState w => exact h.setAttr hof hpoint
  | setTargetLock w => exact h.setAttr hof hpoint
  | loop w =>
      refine h.of_report rfl ?_
      dsimp only [TrackingThread.slewStep, moveTo]
      split <;> exact hpoint
  | setAz w => exact h.setAttr hof hpoint
  | setEl w => exact (h.achieved _).setAttr hof hpoint
  | wait w =>
      rw [TrackingThread.slewStep]
      split
      · exact h.of_report rfl hpoint
      · exact h
  | stopCheck w =>
      rw [TrackingThread.slewStep]
      split
      · exact .of_exit rfl h.written_le hof rfl (by simp)
      · exact h.of_report rfl hpoint

theorem Report.isOf_setTrackCoords {r : Report} {pt : TrackPoint}
    (h : r.At (.setTrackCoords pdata pt)) : r.IsOf pdata := by
  cases pt <;> exact h.1

theorem Report.running_setTrackCoords {r : Report} {pt : TrackPoint}
    (h : r.At (.setTrackCoords pdata pt)) : pdata.pntType = .eSTOW → r.Running := by
  cases pt
  case setPointState => exact fun hstow => absurd hstow h.2
  case setTargetLock => exact fun hstow => absurd hstow h.2
  all_goals exact h.2

theorem Reporting.setTrackCoordsStep (h : s.Reporting) {pt : TrackPoint}
    (hpc : s.pc = .setTrackCoords pdata pt) (hreports : s.ReportsStow (.thread e)) :
    (setTrackCoordsStep props s e pdata pt).Reporting := by
  have hpoint := h.point
  rw [hpc] at hpoint
  rw [ReportsStow, hpc] at hreports
  have hof : s.report.IsOf pdata := Report.isOf_setTrackCoords hpoint
  have hrunning : pdata.pntType = .eSTOW → s.report.Running := Report.running_setTrackCoords hpoint
  have hafter : s.report.At (afterReady pdata) := by
    rw [afterReady]
    split
    · exact ⟨hof, hrunning⟩
    case isFalse htype => exact fun hstow => absurd hstow (hof.not_stow htype)
  cases pt with
  | smear =>
      rw [TrackingThread.setTrackCoordsStep]
      split
      · exact h.of_report rfl ⟨hof, hrunning⟩
      case isFalse htype =>
        split
        · exact h.of_report rfl ⟨hof, htype⟩
        · exact h.of_report rfl ⟨hof, htype⟩
  | setPointState => exact h.setAttr_silent hof (fun hstow => absurd hstow hpoint.2) hpoint
  | setTargetLock =>
      exact h.setAttr_silent hof (fun hstow => absurd hstow hpoint.2) ⟨hof, hrunning⟩
  | setAz => exact h.setAttr_silent hof hreports ⟨hof, hrunning⟩
  | setEl => exact (h.achieved _).setAttr_silent hof hreports ⟨hof, hrunning⟩
  | queueCheck =>
      refine h.of_report rfl ?_
      dsimp only [TrackingThread.setTrackCoordsStep, moveTo]
      split
      · exact ⟨hof, hrunning⟩
      · exact hafter
  | setReady => exact h.setAttr_silent hof hreports hafter
  | disableTracking => exact h.of_report rfl ⟨hof, hrunning⟩
  | stow calls =>
      cases calls with
      | nil =>
          refine ⟨le_rfl, fun hstow => ⟨rfl, rfl, fun _ => ?_⟩⟩
          refine (hrunning ?_).callFailed
          exact Option.some.inj (hof.symm.trans hstow)
      | cons c rest =>
          rw [TrackingThread.setTrackCoordsStep]
          split
          · exact h.of_report rfl ⟨hof, hrunning⟩
          · refine ⟨le_rfl, fun _ => ⟨rfl, rfl, ?_⟩⟩
            intro hcompleted
            cases hcompleted

theorem Reporting.step (h : s.Reporting) {i : TrackingInput} (hreports : s.ReportsStow i) :
    (s.step props i).Reporting := by
  cases i with
  | thread e =>
      rw [TrackingThread.step, threadStep]
      split
      case h_1 hpc => exact h.runStep hpc
      case h_2 hpc => exact h.slewStep hpc hreports
      case h_3 hpc => exact h.setTrackCoordsStep hpc hreports
  | stow =>
      rw [TrackingThread.step, stowStep]
      split
      · exact h.of_report rfl h.point
      · exact h.of_report rfl h.point
      · rw [PointingSchedule.push_stow _ rfl]
        exact h.of_report rfl h.point
      · exact h.of_report rfl h.point
  | enableTracking => exact h.of_report rfl h.point
  | disableTracking => exact h.of_report rfl h.point
  | stop => exact h.of_report rfl h.point
  | flushQueue => exact h.of_report rfl h.point
  | push data => exact h.of_report rfl h.point
  | pushAll data => exact h.of_report rfl h.point
  | setAttrs attrs => exact h.of_report rfl h.point

theorem not_stowSettled_of_silent (hpc : s.pc = .run .loop)
    (hpopped : s.report.popped.map PointingData.pntType = some .eSTOW)
    (hsilent : s.report.written < s.report.pops ∨ s.report.status = .RUNNING) :
    ¬ s.StowSettled := by
  intro hsettled
  obtain ⟨popped, hsome, htype⟩ := Option.map_eq_some_iff.mp hpopped
  have hreport := hsettled (by rw [hpc]; rfl) popped hsome htype
  obtain hwritten | hstatus := hsilent
  · exact absurd hreport.written hwritten.ne
  · have hterminal := hreport.terminal
    rw [hstatus] at hterminal
    contradiction

theorem Reporting.not_stowSettled_step (h : s.Reporting) {i : TrackingInput}
    (hreports : ¬ s.ReportsStow i) : ¬ (s.step props i).StowSettled := by
  have hpoint := h.point
  cases i with
  | thread e =>
      rw [ReportsStow] at hreports
      rw [TrackingThread.step, threadStep]
      split at hreports
      case h_5 => exact absurd trivial hreports
      all_goals
        rename_i pdata hpc
        rw [hpc] at hpoint
        obtain ⟨hstow, hflag⟩ := Classical.not_imp.mp hreports
        simp only [hpc]
      case h_1 =>
        rw [TrackingThread.slewStep, if_neg hflag]
        exact not_stowSettled_of_silent rfl (hstow ▸ hpoint.1) (.inl hpoint.2.written)
      all_goals
        simp only [TrackingThread.setTrackCoordsStep, TrackingThread.setAttr, if_neg hflag]
        exact not_stowSettled_of_silent rfl (hstow ▸ hpoint.1) (.inr (hpoint.2 hstow).status)
  | _ => exact absurd trivial hreports

/-- **What a stow reports.** In a run, every stow whose iteration has ended is settled exactly when
all the steps meet the condition. -/
theorem stowSettled_iff_reportsStow (props : TrackingProperties) (schedule : PointingSchedule)
    (attrs : DishAttrs) (stowProgress : ProgressStatus) (inputs : List TrackingInput) :
    (∀ past, past <+: inputs →
        (run (step props) (initial schedule attrs stowProgress) past).StowSettled)
      ↔ Along (step props) ReportsStow (initial schedule attrs stowProgress) inputs := by
  have hstart : (initial schedule attrs stowProgress).Reporting := by
    refine ⟨le_rfl, ?_⟩
    intro hpopped
    cases hpopped
  have hD : Along (step props) (fun _ _ => True) (initial schedule attrs stowProgress) inputs :=
    along_of_forall_mem fun _ _ => trivial
  refine forall_prefix_iff_along (fun _ h => h.settled) ?_ ?_ hstart hD
  · exact fun _ _ h _ hreports => h.step hreports
  · exact fun _ _ h _ hreports => h.not_stowSettled_step hreports

def stowProps : TrackingProperties where
  slewRate := 1
  slewTimeStep := 1000
  pointingResolution := 5
  smearPointingCoords := false
  stowAzimuthPos := 0
  stowElevationPos := 90

/-- The dish points to the zenith already. -/
def zenithAttrs : DishAttrs where
  antennaAzPosition := 0
  antennaElPosition := 90
  targetLock := false
  brakeState _ := false
  servoState _ := true
  powerState := "FULL-POWER"
  pointingState := "READY"
  operatingMode := "POINT"
  indexerPosition := 1

/-- `stow` schedules the pointing, the thread takes it and finds nothing to slew, and the write of
the azimuth fails. -/
def azimuthWriteFails : List TrackingInput :=
  List.replicate 4 .stow ++ List.replicate 11 (.thread {}) ++ [.thread { callSucceeds := false }]

theorem not_stowSettled_azimuthWriteFails :
    ¬ (run (step stowProps) (initial {} zenithAttrs .INIT) azimuthWriteFails).StowSettled := by
  intro hsettled
  have hrun : (run (step stowProps) (initial {} zenithAttrs .INIT) azimuthWriteFails).pc.inRun
      = true := by decide +kernel
  have hpopped : (run (step stowProps) (initial {} zenithAttrs .INIT) azimuthWriteFails).popped
      = some (.new 0 90 (-1) .eSTOW) := by decide +kernel
  have hterminal := (hsettled hrun _ hpopped rfl).terminal
  exact absurd hterminal (by decide +kernel)

end TrackingThread

end DshLmc
